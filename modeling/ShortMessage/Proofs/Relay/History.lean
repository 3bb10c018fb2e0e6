import ShortMessage.Proofs.Relay.Steps
import ShortMessage.Proofs.Transaction.Run

/-!
# The history of a relay entity

A history is the list of the steps of a run.  What it says of one request is read off it: what was
asked (`request?`), when the transport was done with its message and how (`completions`), and the
answers that indications accepted for it while it had its reference (`acceptances`).

* `Entity.Rule.silent`, `Entity.Rule.lease_of_ne` — a step of one task leaves what the history says
  of another alone, but for an answer that it accepts for it;
* `Entity.acceptance?_self` — a request accepts nothing for itself;
* `Entity.Rule.requested` — what a request returns was decided in an earlier step, unless it cannot
  be sent;
* `Entity.Orderly.holds_unique` — no two tasks have the same reference;
* `Returns` — the steps of a task alone, without any time, lead to its return; so it is from when an
  answer is there (`returns_of_awaiting`) or the time is over (`returns_of_expired`).
-/

namespace ShortMessage.Relay

open Transaction
open Entity (leaseOf?)

/-- A step of a relay entity. -/
abbrev Step := Transition Entity (Move Input) (Event Message Result)

/-- Time passes only while no task can run, and never past the time at which one stops waiting. -/
def onTime (tr : Step) : Bool :=
  match tr.move with
  | .elapse duration => tr.before.tasks.all fun t =>
    (tr.before.run t.1).isNone &&
      (tr.before.deadline? t.1).all fun deadline => tr.before.clock + duration ≤ deadline
  | _ => true

/-- Does this task have this reference? -/
def Entity.holds (e : Entity) (id : TaskId) (reference : UInt8) : Bool :=
  (e.lease? id).any fun lease =>
    (e.references.holder? reference.toNat).any fun holder => holder.lease = lease

/-- A request that may have been sent and does not know its outcome, under this reference. -/
def Entity.Outstanding (e : Entity) (id : TaskId) (r : Request) (reference : UInt8) : Prop :=
  ∃ phase lease, e.task? id = some (.requesting r phase) ∧ phase.isOpen = true ∧
    leaseOf? (.requesting r phase) = some lease ∧ UInt8.ofNat lease.index = reference

/-! ## What a history says of a task -/

/-- The request that a task was started for. -/
def request? (h : List Step) (id : TaskId) : Option Request :=
  (input? Entity.started h id).bind fun
    | .request r => some r
    | .indication _ => none

/-- When the transport was done with a task's message, and how. -/
def completion? (id : TaskId) (tr : Step) : Option (Nat × Except Failure Unit) :=
  match tr.move with
  | .sent j result => if j = id then some (tr.before.clock, result) else none
  | _ => none

/-- All that the transport said to a task. -/
def completions (h : List Step) (id : TaskId) : List (Nat × Except Failure Unit) :=
  h.filterMap (completion? id)

/-- The answer that an indication accepts in a step for the reference that a task has. -/
def acceptance? (id : TaskId) (tr : Step) : Option Message :=
  match tr.move, tr.events with
  | .run j, [.returned _ (.indicated (.ok ()))] =>
    match tr.before.task? j with
    | some (.indicating m .arrived) => if tr.before.holds id m.reference then some m else none
    | _ => none
  | _, _ => none

/-- The answers that were accepted for a task, the first one first. -/
def acceptances (h : List Step) (id : TaskId) : List Message := h.filterMap (acceptance? id)

/-! ## A history that grows by a step -/

section

variable {h : List Step} {id : TaskId} {tr : Step} {r : Request}

theorem completions_snoc :
    completions (h ++ [tr]) id = completions h id ++ (completion? id tr).toList :=
  filterMap_snoc _

theorem acceptances_snoc :
    acceptances (h ++ [tr]) id = acceptances h id ++ (acceptance? id tr).toList :=
  filterMap_snoc _

theorem request?_snoc_of_some (hr : request? h id = some r) :
    request? (h ++ [tr]) id = some r := by
  obtain ⟨input, hi, hin⟩ := Option.bind_eq_some_iff.1 hr
  unfold request?
  rw [input?_snoc_of_some hi]
  exact hin

end

/-! ## What a step does not touch -/

namespace Entity

variable {e e' : Entity} {move : Move Input} {events : List (Event Message Result)}
  {id : TaskId} {lease : Lease}

theorem Rule.task?_of_ne (hr : Rule e move e' events) (hid : actor? move ≠ some id) :
    e'.task? id = e.task? id ∨ ∃ input, move = .start input ∧ e.started = id ∧
      e'.task? id = (e.task? id).or (some (taskFor input)) := by
  have hne : ∀ {j}, some j ≠ some id → id ≠ j := fun h h' => h (h' ▸ rfl)
  cases hr with
  | start input =>
    by_cases hs : e.started = id
    · exact .inr ⟨input, rfl, hs, by simp [hs]⟩
    · have : ¬ id = e.started := fun h => hs h.symm
      exact .inl (by simp [this])
  | elapsed duration => exact .inl rfl
  | _ => exact .inl (by simp [hne hid])

theorem Rule.silent (hr : Rule e move e' events) (hid : actor? move ≠ some id) :
    events.filterMap (·.emittedBy? id) = [] ∧ completion? id ⟨e, move, events, e'⟩ = none ∧
      ∀ result, .returned id result ∉ events := by
  have hne : ∀ {j}, some j ≠ some id → ¬ j = id ∧ ¬ id = j :=
    fun h => ⟨fun h' => h (h' ▸ rfl), fun h' => h (h' ▸ rfl)⟩
  cases hr with
  | start input => simp [completion?]
  | elapsed duration => simp [completion?]
  | _ => simp [completion?, Event.emittedBy?, hne hid]

/-- The lease of a task is given back by that task alone, and what comes for it is accepted for the
task. -/
theorem Rule.lease_of_ne (hr : Rule e move e' events) (ho : e.Orderly)
    (hid : actor? move ≠ some id) (hl : e.lease? id = some lease) :
    e'.references.isReleased lease = e.references.isReleased lease ∧
      e'.references.pending lease = e.references.pending lease ++
        (acceptance? id ⟨e, move, events, e'⟩).toList ∧
      ∀ i key, e'.references.holder? i = some ⟨lease, key⟩ →
        e.references.holder? i = some ⟨lease, key⟩ := by
  have hne : ∀ {j}, some j ≠ some id → id ≠ j := fun h h' => h (h' ▸ rfl)
  have hdrop : ∀ {j l} {t : Table Message Direction}, some j ≠ some id → e.lease? j = some l →
      t = e.references.drop l → t.isReleased lease = e.references.isReleased lease ∧
        t.pending lease = e.references.pending lease ++ [] ∧
        ∀ i key, t.holder? i = some ⟨lease, key⟩ →
          e.references.holder? i = some ⟨lease, key⟩ := by
    rintro j l t hj hjl rfl
    have hll := ho.lease_ne hjl hl (hne hj)
    refine ⟨by rw [Table.isReleased_drop, if_neg hll],
      by rw [Table.pending_drop, if_neg hll, List.append_nil], fun i key hi => ?_⟩
    rw [ho.accounts.sound.holder?_drop] at hi
    exact (Option.filter_eq_some_iff.1 hi).1
  cases hr with
  | opened ht hc hlease =>
    have hleased := ho.accounts.sound.leased_of_lease? hlease
    have hll : lease ≠ _ := ho.accounts.ne_of_leased hleased hl
    refine ⟨?_, ?_, fun i key hi => ?_⟩
    · exact (hleased.isReleased _).trans (if_neg hll)
    · simpa [acceptance?, hll] using hleased.pending lease
    · have hi' := (hleased.holder i).symm.trans hi
      split at hi'
      · cases hi'; exact absurd rfl hll
      · exact hi'
  | took ht htake =>
    have hll := ho.lease_ne (lease?_eq ht) hl (hne hid)
    refine ⟨Table.isReleased_take? htake _, ?_, fun i key hi => ?_⟩
    · simpa [acceptance?] using Table.pending_take?_of_ne htake hll
    · exact (Table.holder?_take? htake i).symm.trans hi
  | retired ht =>
    have hll := ho.lease_ne (lease?_eq ht) hl (hne hid)
    refine ⟨?_, ?_, fun i key hi => ?_⟩
    · exact (Table.isReleased_retire _ _ _).trans (if_neg hll)
    · simpa [acceptance?] using (Table.pending_retire _ _ _).trans (if_neg hll)
    · have hi' := (ho.accounts.sound.holder?_retire _ i).symm.trans hi
      exact (Option.filter_eq_some_iff.1 hi').1
  | closed ht => simpa [acceptance?] using hdrop hid (lease?_eq ht) rfl
  | @delivered k m references ht hc hp =>
    obtain ⟨holder, hh, -, hpend⟩ := Table.pending_postIf hp
    refine ⟨Table.isReleased_postIf hp _, ?_, fun i key hi => ?_⟩
    · have hacc : acceptance? id ⟨e, .run k, [.returned k (.indicated (.ok ()))],
          ({ e with references } : Entity).remove k⟩ =
            if lease = holder.lease then some m else none := by
        have : (holder.lease = lease) = (lease = holder.lease) := propext eq_comm
        simp [acceptance?, ht, holds, hl, hh, this]
      rw [hacc]
      refine (hpend lease).trans ?_
      split <;> simp
    · exact (Table.holder?_postIf hp i).symm.trans hi
  | @aborted k task ht =>
    rcases hk : leaseOf? task with _ | l
    · simp [acceptance?, forgo]
    · simpa [acceptance?, forgo] using hdrop hid ((lease?_eq ht).trans hk) rfl
  | _ => simp [acceptance?]

theorem acceptance?_eq_some {tr : Step} {m : Message} (h : acceptance? id tr = some m) :
    tr.before.holds id m.reference = true := by
  unfold acceptance? at h
  split at h
  · split at h
    · split at h
      · rename_i hholds
        cases h
        exact hholds
      · cases h
    · cases h
  · cases h

theorem acceptance?_self (tr : Step) {r : Request} {phase : Requesting}
    (ha : actor? tr.move = some id) (ht : tr.before.task? id = some (.requesting r phase))
    (j : TaskId) : acceptance? j tr = none := by
  unfold acceptance?
  split
  · rename_i k _ hm _
    rw [hm] at ha
    cases ha
    rw [ht]
  · rfl

theorem Rule.config_eq (hr : Rule e move e' events) : e'.config = e.config := by
  cases hr <;> rfl

theorem Rule.clock_eq (hr : Rule e move e' events) (hm : ∀ duration, move ≠ .elapse duration) :
    e'.clock = e.clock := by
  cases hr with
  | elapsed duration => exact absurd rfl (hm duration)
  | _ => rfl

end Entity

/-! ## What a step of a task does to it -/

section

variable {h : List Step} {e e' : Entity} {id : TaskId} {r : Request} {phase : Requesting}
  {move : Move Input} {events : List (Event Message Result)}

theorem Entity.Rule.exists_task (hr : Entity.Rule e move e' events) (ha : actor? move = some id) :
    ∃ task, e.task? id = some task := by
  cases hr with
  | start input => cases ha
  | elapsed duration => cases ha
  | _ => cases ha; exact ⟨_, by assumption⟩

theorem Entity.Rule.emits (hr : Entity.Rule e move e' events) (ha : actor? move = some id)
    (ht : e.task? id = some (.requesting r phase)) :
    events.filterMap (·.emittedBy? id) = [] ∨ leaseOf? (.requesting r phase) = none ∧
      ∃ reference, events.filterMap (·.emittedBy? id) = [r.message e.config.centre reference] := by
  cases hr with
  | opened ht0 =>
    cases ha
    rw [ht] at ht0
    cases ht0
    exact .inr ⟨rfl, _, by simp only [List.filterMap_cons, Event.emittedBy?, if_true]; rfl⟩
  | answered ht0 => cases ha; rw [ht] at ht0; cases ht0
  | _ => exact .inl (by simp [Event.emittedBy?])

/-- A task may change its phase, but not what it is about. -/
theorem Entity.Rule.remains {task task' : Task} (hr : Entity.Rule e move e' events)
    (ha : actor? move = some id) (ht : e.task? id = some task) (ht' : e'.task? id = some task') :
    (∃ r phase phase', task = .requesting r phase ∧ task' = .requesting r phase') ∨
      ∃ m at_ at_', task = .indicating m at_ ∧ task' = .indicating m at_' := by
  cases hr with
  | start input => cases ha
  | elapsed duration => cases ha
  | opened ht0 | took ht0 | retired ht0 | sent ht0 | failed ht0 | expired ht0 =>
    cases ha
    rw [ht0] at ht
    cases ht
    simp only [task?_put, task?_references, ht0, if_true, Option.map_some, Option.some.injEq] at ht'
    exact .inl ⟨_, _, _, rfl, ht'.symm⟩
  | called ht0 | answered ht0 =>
    cases ha
    rw [ht0] at ht
    cases ht
    simp only [task?_put, ht0, if_true, Option.map_some, Option.some.injEq] at ht'
    exact .inr ⟨_, _, _, rfl, ht'.symm⟩
  | _ => cases ha; simp at ht'

theorem Entity.Rule.gone {result : Result} (hr : Entity.Rule e move e' events)
    (hret : .returned id result ∈ events) : actor? move = some id ∧ e'.task? id = none := by
  cases hr <;> simp at hret
  all_goals
    obtain ⟨rfl, -⟩ := hret
    exact ⟨rfl, by simp⟩

/-- What a request returns has been decided before, unless it cannot be sent. -/
theorem Entity.Rule.requested {outcome : Outcome} (hr : Entity.Rule e move e' events)
    (hret : .returned id (.requested outcome) ∈ events) :
    move = .run id ∧ events = [.returned id (.requested outcome)] ∧
      ((∃ m, e.task? id = some (.requesting (.transfer m) .opening) ∧ m.isReport = true ∧
          outcome = misuse m) ∨
        (∃ r, e.task? id = some (.requesting r .opening) ∧ carriesReport r = false ∧
          e.references.lease? r.answerDirection = none ∧
          outcome = .error (.relayCause .congestion)) ∨
        ∃ r lease, e.task? id = some (.requesting r (.closing lease outcome))) := by
  cases hr with
  | misused ht hm =>
    cases List.mem_singleton.1 hret
    exact ⟨rfl, rfl, .inl ⟨_, ht, hm, rfl⟩⟩
  | congested ht hc hl =>
    cases List.mem_singleton.1 hret
    exact ⟨rfl, rfl, .inr (.inl ⟨_, ht, hc, hl, rfl⟩)⟩
  | closed ht =>
    cases List.mem_singleton.1 hret
    exact ⟨rfl, rfl, .inr (.inr ⟨_, _, ht⟩)⟩
  | _ => simp at hret

theorem acceptance?_of_lease?_eq_none {tr : Step} (hl : tr.before.lease? id = none) :
    acceptance? id tr = none := by
  rcases ha : acceptance? id tr with _ | m
  · rfl
  · have := Entity.acceptance?_eq_some ha
    simp [Entity.holds, hl] at this

/-- A task that is not there has no part in a step. -/
theorem Entity.Rule.absent (hr : Entity.Rule e move e' events) (hn : e.task? id = none) :
    actor? move ≠ some id ∧ acceptance? id ⟨e, move, events, e'⟩ = none := by
  refine ⟨fun ha => ?_, acceptance?_of_lease?_eq_none (by simp [Entity.lease?, hn])⟩
  obtain ⟨task, ht⟩ := hr.exists_task ha
  rw [hn] at ht
  cases ht

theorem Entity.Rule.started_le (hr : Entity.Rule e move e' events) : e.started ≤ e'.started := by
  cases hr <;> simp

/-- What was asked of a task is settled when it starts. -/
theorem Entity.Rule.input?_eq (hr : Entity.Rule e move e' events) (h : List Step) (id : TaskId) :
    (∃ input, move = .start input ∧ e.started = id ∧ e'.started = id + 1) ∨
      input? Entity.started (h ++ [⟨e, move, events, e'⟩]) id = input? Entity.started h id := by
  cases hr with
  | start input =>
    by_cases hid : e.started = id
    · exact .inl ⟨input, rfl, hid, by simp [hid]⟩
    · exact .inr (input?_snoc_of_ne fun _ _ => hid)
  | _ => exact .inr (input?_snoc_of_ne (by rintro _ ⟨⟩))

/-! ## References and time -/

/-- A reference is refused only when every one of them is held. -/
theorem Entity.Orderly.holds_of_full {direction : Direction} (ho : e.Orderly)
    (hl : e.references.lease? direction = none) (reference : UInt8) :
    ∃ j, e.holds j reference = true := by
  have hlt : reference.toNat < e.references.slots.length := by
    rw [ho.length]
    exact reference.toNat_lt
  obtain ⟨holder, hh⟩ := Option.isSome_iff_exists.1 (Table.lease?_eq_none_iff.1 hl _ hlt)
  obtain ⟨box, hbox, -⟩ := ho.accounts.sound.holder_mailbox hh
  obtain ⟨j, hj⟩ := ho.accounts.owner hbox
  exact ⟨j, by simp [holds, hj, hh]⟩

theorem Entity.holds_iff {reference : UInt8} : e.holds id reference = true ↔
    ∃ holder, e.lease? id = some holder.lease ∧
      e.references.holder? reference.toNat = some holder := by
  unfold holds
  simp only [Option.any_eq_true, decide_eq_true_eq]
  constructor
  · rintro ⟨lease, hl, holder, hh, rfl⟩
    exact ⟨holder, hl, hh⟩
  · rintro ⟨holder, hl, hh⟩
    exact ⟨holder.lease, hl, holder, hh, rfl⟩

theorem Entity.Orderly.holds_unique {i j : TaskId} {reference : UInt8} (ho : e.Orderly)
    (hi : e.holds i reference = true) (hj : e.holds j reference = true) : i = j := by
  obtain ⟨holder, hl, hh⟩ := Entity.holds_iff.1 hi
  obtain ⟨holder', hl', hh'⟩ := Entity.holds_iff.1 hj
  rw [hh] at hh'
  cases hh'
  exact ho.accounts.unique hl hl'

/-- A request that may have been sent has its reference. -/
theorem Entity.Orderly.holds_of_outstanding {reference : UInt8} (ho : e.Orderly)
    (hout : e.Outstanding id r reference) : e.holds id reference = true := by
  obtain ⟨phase, lease, ht, hopen, hl, rfl⟩ := hout
  have hlease := (Entity.lease?_eq ht).trans hl
  obtain ⟨box, hbox⟩ := ho.accounts.mailbox hlease
  have hrel := ho.held ht hopen hl
  rw [Table.isReleased_of_mailbox? hbox] at hrel
  obtain ⟨key, hkey⟩ := ho.accounts.sound.holder_of_unreleased hbox hrel
  have hlt := ho.accounts.sound.index_lt hbox
  rw [ho.length] at hlt
  have hindex : (UInt8.ofNat lease.index).toNat = lease.index := Nat.mod_eq_of_lt hlt
  exact Entity.holds_iff.2 ⟨⟨lease, key⟩, hlease, by rw [hindex]; exact hkey⟩

/-- A request to which something is given holds its reference. -/
theorem acceptance?_of_released {tr : Step} {lease : Lease} (ho : tr.before.Orderly)
    (hl : tr.before.lease? id = some lease)
    (hr : tr.before.references.isReleased lease = true) : acceptance? id tr = none := by
  rcases ha : acceptance? id tr with _ | m
  · rfl
  · have hh := Entity.acceptance?_eq_some ha
    simp only [Entity.holds, hl, Option.any_some, Option.any_eq_true, decide_eq_true_eq] at hh
    obtain ⟨holder, hi, rfl⟩ := hh
    obtain ⟨box, hbox, hrel⟩ := ho.accounts.sound.holder_mailbox hi
    rw [Table.isReleased_of_mailbox? hbox, hrel] at hr
    cases hr

theorem of_onTime {duration : Nat} {task : Task}
    (htime : onTime ⟨e, .elapse duration, events, e'⟩ = true) (ht : e.task? id = some task) :
    e.run id = none ∧ ∀ {deadline}, e.deadline? id = some deadline →
      e.clock + duration ≤ deadline := by
  have hall := List.all_eq_true.1 htime _ (mem_of_lookup ht)
  simp only [Bool.and_eq_true, Option.isNone_iff_eq_none] at hall
  refine ⟨hall.1, fun hd => ?_⟩
  simpa [hd] using hall.2

/-! ## Returning -/

/-- The steps of the task alone, without any time, lead from `e` to its return. -/
def Returns (e : Entity) (id : TaskId) (outcome : Outcome) : Prop :=
  ∃ moves h s, (∀ move ∈ moves, move = .run id ∨ move = .expire id) ∧
    replay Entity.step? e moves = some (h, s) ∧ ∃ s', Returned h id s' (.requested outcome)

theorem Returns.cons {outcome : Outcome} (hmove : move = .run id ∨ move = .expire id)
    (hs : e.step? move = some (e', events)) (hr : Returns e' id outcome) :
    Returns e id outcome := by
  obtain ⟨moves, k, s, hall, hreplay, s', tr, htr, hret⟩ := hr
  refine ⟨move :: moves, ⟨e, move, events, e'⟩ :: k, s, ?_, ?_, s', tr, ?_, hret⟩
  · rintro m (_ | ⟨_, hm⟩)
    · exact hmove
    · exact hall m hm
  · simp [replay, hs, hreplay]
  · exact List.mem_cons_of_mem _ htr

theorem returns_of_closing {lease : Lease} {outcome : Outcome}
    (ht : e.task? id = some (.requesting r (.closing lease outcome))) : Returns e id outcome := by
  have hs : e.step? (.run id) =
      some (({ e with references := e.references.drop lease } : Entity).remove id,
        [.returned id (.requested outcome)]) := by
    simp [Entity.step?, Entity.run, ht, Entity.runRequest, Entity.finish]
  exact ⟨[.run id], _, _, by simp, by rw [replay, hs]; rfl, e, _, List.mem_singleton.2 rfl, rfl,
    List.mem_singleton.2 rfl⟩

theorem returns_of_expired {lease : Lease}
    (ht : e.task? id = some (.requesting r (.expired lease))) :
    Returns e id (r.outcome (e.references.pending lease).head?) := by
  rw [← Table.retire_fst]
  have hs : e.step? (.run id) =
      some (({ e with references := (e.references.retire lease).2 } : Entity).put id
        (.requesting r (.closing lease (r.outcome (e.references.retire lease).1))), []) := by
    simp [Entity.step?, Entity.run, ht, Entity.runRequest, Entity.become]
  exact Returns.cons (.inl rfl) hs (returns_of_closing (Entity.task?_put_self ht))

theorem returns_of_awaiting {lease : Lease} {deadline : Nat}
    (ht : e.task? id = some (.requesting r (.awaiting lease deadline)))
    (hready : e.references.pending lease = [] → deadline ≤ e.clock) :
    Returns e id (r.outcome (e.references.pending lease).head?) := by
  rcases hp : e.references.pending lease with _ | ⟨m, rest⟩
  · have hs : e.step? (.expire id) = some (e.put id (.requesting r (.expired lease)), []) := by
      simp [Entity.step?, Entity.expire, ht, hready hp, hp, Entity.become]
    have hret : Returns (e.put id (.requesting r (.expired lease))) id
        (r.outcome (e.references.pending lease).head?) :=
      returns_of_expired (Entity.task?_put_self ht)
    rw [hp] at hret
    exact Returns.cons (.inr rfl) hs hret
  · obtain ⟨references, htake⟩ : ∃ t, e.references.take? lease = some (m, t) :=
      ⟨_, Table.take?_of_pending hp⟩
    have hs : e.step? (.run id) = some (({ e with references } : Entity).put id
        (.requesting r (.closing lease (r.outcome (some m)))), []) := by
      simp [Entity.step?, Entity.run, ht, Entity.runRequest, htake, Entity.become]
    exact Returns.cons (.inl rfl) hs (returns_of_closing (Entity.task?_put_self ht))

end

end ShortMessage.Relay
