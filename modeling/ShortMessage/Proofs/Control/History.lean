import ShortMessage.Proofs.Control.Orderly
import ShortMessage.Proofs.Control.Steps
import ShortMessage.Proofs.Transaction.Run

/-!
# The history of a control entity

What a history says of a message to send: what was to be sent (`message?`), what was handed to the
transport and when (`sendings`), and what came in for it while it had its transaction
(`acceptances`).  The first message of the other side that is no acknowledgement decides
(`decisive`).

* `Entity.Rule.task_of_mem` — whatever is seen in a step is done by the task that takes it;
* `Entity.Rule.pending_of_ne` — what is kept for the transaction of a task changes, by a step of
  another, only by what comes in for it;
* `Entity.Rule.clock_of_run` — a task that can run stops the clock.
-/

namespace ShortMessage.Control

open Transaction

/-- A step of a control entity. -/
abbrev Transit := Transition Entity (Move Input) (Event Message Result)

/-- The transport succeeds.  Time passes only while no task can run and nothing is with the
transport, and never past the time at which a task stops waiting. -/
def punctual (tr : Transit) : Bool :=
  match tr.move with
  | .sent _ (.error _) => false
  | .elapse duration => tr.before.tasks.all fun t =>
    (tr.before.run t.1).isNone && (tr.before.sent t.1 (.ok ())).isNone &&
      (tr.before.deadline? t.1).all fun deadline => tr.before.clock + duration ≤ deadline
  | _ => true

/-- Has this task opened the transaction with this value, and not given it back? -/
def Entity.holds (e : Entity) (id : TaskId) (value : UInt8) : Bool :=
  (e.leaseOut? id).any fun lease =>
    (e.outgoing.holder? value.toNat).any fun holder => holder.lease = lease

/-- The transaction of a lease, as this side names it. -/
def ownTransaction (lease : Lease) : TransactionId := ⟨false, UInt8.ofNat lease.index⟩

/-- The outcome of a message to send, once it is known. -/
def Sending.outcome? : Sending → Option Outcome
  | .concluding _ outcome | .closing _ outcome => some outcome
  | _ => none

/-! ## What a history says of a task -/

/-- The message that a task was started to send. -/
def message? (h : List Transit) (id : TaskId) : Option Relay.Message :=
  (input? Entity.started h id).bind fun
    | .send m => some m
    | _ => none

/-- All that a task hands to its transport, and when. -/
def sendings (h : List Transit) (id : TaskId) : List (Nat × Message) :=
  h.flatMap fun tr => (tr.events.filterMap (·.emittedBy? id)).map (tr.before.clock, ·)

/-- The message of the other side that comes in in a step on the transaction that a task has. -/
def acceptance? (id : TaskId) (tr : Transit) : Option Message :=
  match tr.move, tr.events with
  | .run j, [.returned _ (.received (.ok ()))] =>
    match tr.before.task? j with
    | some (.receiving (.arrived m)) =>
      if m.transaction.flag && tr.before.holds id m.transaction.value then some m else none
    | _ => none
  | _, _ => none

/-- The messages that came in for a task, the first one first. -/
def acceptances (h : List Transit) (id : TaskId) : List Message := h.filterMap (acceptance? id)

/-- Is it an acknowledgement? -/
def Message.isAck : Message → Bool
  | .ack _ => true
  | _ => false

/-- The first message for a task that is no acknowledgement. -/
def decisive (h : List Transit) (id : TaskId) : Option Message :=
  (acceptances h id).find? fun m => !m.isAck

/-- All that has come for a lease and was taken is acknowledgements. -/
def Waiting (h : List Transit) (e : Entity) (id : TaskId) (lease : Lease) : Prop :=
  ∃ acks, (∀ a ∈ acks, a.isAck = true) ∧ acceptances h id = acks ++ e.outgoing.pending lease

/-! ## A history that grows by a step -/

section

variable {h : List Transit} {id : TaskId} {tr : Transit} {m : Relay.Message}

theorem sendings_snoc : sendings (h ++ [tr]) id =
    sendings h id ++ (tr.events.filterMap (·.emittedBy? id)).map (tr.before.clock, ·) := by
  simp [sendings]

/-- A step without a message sends nothing. -/
theorem sendings_snoc_of_nil (hem : tr.events.filterMap (·.emittedBy? id) = []) :
    sendings (h ++ [tr]) id = sendings h id := by
  rw [sendings_snoc, hem, List.map_nil, List.append_nil]

theorem acceptances_snoc :
    acceptances (h ++ [tr]) id = acceptances h id ++ (acceptance? id tr).toList :=
  filterMap_snoc _

/-- A task is started once, so its message stays the same. -/
theorem message?_snoc_of_some (hm : message? h id = some m) :
    message? (h ++ [tr]) id = some m := by
  obtain ⟨input, hi, hin⟩ := Option.bind_eq_some_iff.1 hm
  unfold message?
  rw [input?_snoc_of_some hi]
  exact hin

/-- What is first stays first. -/
theorem decisive_snoc_of_some {x : Message} (hd : decisive h id = some x) :
    decisive (h ++ [tr]) id = some x := by
  unfold decisive at hd ⊢
  rw [acceptances_snoc, List.find?_append, hd, Option.some_or]

/-- The first message that is no acknowledgement decides. -/
theorem decisive_eq {acks rest : List Message} {x : Message} (hacks : ∀ a ∈ acks, a.isAck = true)
    (hx : x.isAck = false) (hacc : acceptances h id = acks ++ x :: rest) :
    decisive h id = some x := by
  have hnone : acks.find? (fun m => !m.isAck) = none :=
    List.find?_eq_none.2 fun a ha => by simp [hacks a ha]
  unfold decisive
  rw [hacc, List.find?_append, hnone, Option.none_or, List.find?_cons, hx]
  rfl

theorem mem_of_decisive {x : Message} (hd : decisive h id = some x) : x ∈ acceptances h id :=
  List.mem_of_find?_eq_some hd

theorem emitted_mem_filterMap {events : List (Event Message Result)} {x : Message}
    (hx : .emitted id x ∈ events) : x ∈ events.filterMap (·.emittedBy? id) :=
  List.mem_filterMap.2 ⟨_, hx, if_pos rfl⟩

end

/-! ## What a step does not touch -/

namespace Entity

variable {e e' : Entity} {move : Move Input} {events : List (Event Message Result)}
  {id j : TaskId} {lease : Lease} {task : Task} {task' : Option Task}
  {outgoing incoming : Table Message Unit} {m : Message}

theorem Act.actor (ha : Act e id move task task' outgoing incoming events) :
    actor? move = some id := by
  cases ha <;> rfl

theorem Act.task_of_mem (ha : Act e id move task task' outgoing incoming events) :
    ∀ ev ∈ events, ev.task = id := by
  intro ev hev
  cases ha with
  | delivered ht hf | took ht hf | tookLate ht hf =>
    cases hf <;> simp only [saying, List.mem_singleton, List.not_mem_nil] at hev
    all_goals exact hev ▸ rfl
  | _ => first | exact absurd hev List.not_mem_nil | (rw [List.mem_singleton.1 hev]; rfl)

/-- Whatever is seen in a step is done by the task that takes it. -/
theorem Rule.task_of_mem (hr : Rule e move e' events) {ev : Event Message Result}
    (hev : ev ∈ events) : actor? move = some ev.task := by
  cases hr with
  | start input => cases hev
  | act ht ha => rw [ha.actor, ha.task_of_mem ev hev]
  | handedOver ht => obtain rfl := List.mem_singleton.1 hev; rfl
  | elapsed duration => cases hev

theorem Rule.emits_nothing (hr : Rule e move e' events) (hid : actor? move ≠ some id) :
    events.filterMap (·.emittedBy? id) = [] :=
  Event.emittedBy?_eq_nil fun _ hev h => hid (h ▸ hr.task_of_mem hev)

theorem holds_iff {value : UInt8} : e.holds id value = true ↔
    ∃ holder, e.leaseOut? id = some holder.lease ∧
      e.outgoing.holder? value.toNat = some holder := by
  unfold holds
  simp only [Option.any_eq_true, decide_eq_true_eq]
  constructor
  · rintro ⟨lease, hl, holder, hh, rfl⟩
    exact ⟨holder, hl, hh⟩
  · rintro ⟨holder, hl, hh⟩
    exact ⟨holder.lease, hl, holder, hh, rfl⟩

theorem Orderly.index_lt (ho : e.Orderly) (hl : e.leaseOut? id = some lease) :
    lease.index < transactionCount := by
  obtain ⟨box, hbox⟩ := ho.outgoing.mailbox hl
  exact ho.outgoing_length ▸ ho.outgoing.sound.index_lt hbox

theorem Orderly.value_toNat (ho : e.Orderly) (hl : e.leaseOut? id = some lease) :
    (ownTransaction lease).value.toNat = lease.index :=
  Nat.mod_eq_of_lt (Nat.lt_trans (ho.index_lt hl) (by decide))

/-- A task that has not given back its transaction has it. -/
theorem Orderly.holds (ho : e.Orderly) (hl : e.leaseOut? id = some lease)
    (hr : e.outgoing.isReleased lease = false) :
    e.holds id (ownTransaction lease).value = true := by
  obtain ⟨box, hbox⟩ := ho.outgoing.mailbox hl
  rw [Table.isReleased_of_mailbox? hbox] at hr
  obtain ⟨key, hkey⟩ := ho.outgoing.sound.holder_of_unreleased hbox hr
  exact holds_iff.2 ⟨⟨lease, key⟩, hl, by rw [ho.value_toNat hl]; exact hkey⟩

theorem acceptance?_eq_some {tr : Transit} (h : acceptance? id tr = some m) :
    ∃ j k, tr.move = .run j ∧ tr.events = [.returned k (.received (.ok ()))] ∧
      tr.before.task? j = some (.receiving (.arrived m)) ∧ m.transaction.flag = true ∧
      tr.before.holds id m.transaction.value = true := by
  unfold acceptance? at h
  split at h
  · rename_i j k hmove hev
    split at h
    · rename_i m' ht
      split at h
      · rename_i hc
        cases h
        rw [Bool.and_eq_true] at hc
        exact ⟨j, k, hmove, hev, ht, hc⟩
      · cases h
    · cases h
  · cases h

/-- What comes in for a task names the transaction of the task. -/
theorem acceptance?_transaction {x : Message} (ho : e.Orderly) (hl : e.leaseOut? id = some lease)
    (hx : acceptance? id ⟨e, move, events, e'⟩ = some x) :
    x.transaction = (ownTransaction lease).reverse := by
  obtain ⟨_, _, -, -, -, hflag, hholds⟩ := acceptance?_eq_some hx
  obtain ⟨holder, hl', hh⟩ := holds_iff.1 hholds
  simp only at hl' hh
  rw [hl] at hl'
  cases hl'
  have hindex := ho.outgoing.sound.holder_index hh
  unfold ownTransaction TransactionId.reverse
  rw [hindex, UInt8.ofNat_toNat]
  generalize x.transaction = t at hflag
  cases t
  cases hflag
  rfl

/-- A message that is accepted for someone is posted. -/
theorem Act.posts (ha : Act e id move (.receiving (.arrived m)) task' outgoing incoming events)
    (hflag : m.transaction.flag = true) (hev : events = [.returned j (.received (.ok ()))]) :
    e.outgoing.post m.transaction.value.toNat m = .ok outgoing := by
  cases ha with
  | posted _ hp => exact hp
  | postedIncoming hflag' => rw [hflag] at hflag'; cases hflag'
  | _ => cases hev

theorem acceptance?_posted (ht : e.task? j = some (.receiving (.arrived m)))
    (hflag : m.transaction.flag = true) :
    acceptance? id ⟨e, .run j, [.returned j (.received (.ok ()))], e'⟩ =
      if e.holds id m.transaction.value then some m else none := by
  simp [acceptance?, ht, hflag]

/-- What comes for the transaction of a task is accepted for the task. -/
theorem Rule.pending_of_ne (hr : Rule e move e' events) (ho : e.Orderly)
    (hid : actor? move ≠ some id) (hl : e.leaseOut? id = some lease) :
    e'.outgoing.pending lease = e.outgoing.pending lease ++
      (acceptance? id ⟨e, move, events, e'⟩).toList := by
  cases hr with
  | start input => simp [acceptance?, spawn]
  | handedOver ht => simp [acceptance?, spawn, remove]
  | elapsed duration => simp [acceptance?]
  | @act j _ task task' outgoing incoming _ ht ha =>
    have hne : id ≠ j := by
      rintro rfl
      exact hid ha.actor
    -- who has the slot that is posted to is told by the lease
    have hposted : ∀ m, e.outgoing.post m.transaction.value.toNat m = .ok outgoing →
        outgoing.pending lease = e.outgoing.pending lease ++
          if e.holds id m.transaction.value then [m] else [] := by
      intro m hp
      obtain ⟨holder, hh, -, hpend⟩ := Table.pending_postIf hp
      rw [hpend]
      by_cases hx : lease = holder.lease
      · rw [if_pos hx, if_pos (holds_iff.2 ⟨holder, hl.trans (congrArg some hx), hh⟩)]
      · rw [if_neg hx, if_neg, List.append_nil]
        intro hc
        obtain ⟨holder', hl', hh'⟩ := holds_iff.1 hc
        rw [hh] at hh'
        cases hh'
        rw [hl] at hl'
        exact hx (Option.some.inj hl')
    rw [outgoing_settle]
    rcases hacc : acceptance? id ⟨e, move, events, e.settle j task' outgoing incoming⟩ with _ | m
    · obtain hc | ⟨m, rfl, hflag, hp, rfl, rfl, -⟩ := ha.outgoing_change ho.outgoing.sound
      · have hm := (ho.outgoing.of_ne hc (leaseOut?_eq ht) hl hne).1
        simp [Table.pending, hm]
      · rw [hposted m hp]
        rw [acceptance?_posted ht hflag] at hacc
        split at hacc
        · cases hacc
        · rename_i hc
          rw [if_neg hc]
          rfl
    · obtain ⟨j', k, hmove, hev, ht', hflag, hholds⟩ := acceptance?_eq_some hacc
      have hjj : j' = j := by
        have hactor := ha.actor
        simp only at hmove
        rw [hmove] at hactor
        exact Option.some.inj hactor
      subst hjj
      simp only at ht' hev
      rw [ht] at ht'
      cases ht'
      rw [hposted m (ha.posts hflag hev), if_pos hholds]
      rfl

theorem Rule.clock_eq (hr : Rule e move e' events) (hm : ∀ duration, move ≠ .elapse duration) :
    e'.clock = e.clock := by
  cases hr with
  | start input => rfl
  | act ht ha => simp
  | handedOver ht => rfl
  | elapsed duration => exact absurd rfl (hm duration)

theorem Rule.config_eq (hr : Rule e move e' events) : e'.config = e.config := by
  cases hr with
  | act ht ha => simp
  | _ => rfl

theorem of_punctual {duration : Nat}
    (htime : punctual ⟨e, .elapse duration, events, e'⟩ = true) (ht : e.task? id = some task) :
    e.run id = none ∧ e.sent id (.ok ()) = none ∧ ∀ {deadline}, e.deadline? id = some deadline →
      e.clock + duration ≤ deadline := by
  have hall := List.all_eq_true.1 htime _ (mem_of_lookup ht)
  simp only [Bool.and_eq_true, Option.isNone_iff_eq_none] at hall
  refine ⟨hall.1.1, hall.1.2, fun hd => ?_⟩
  simpa [hd] using hall.2

/-- A task that can run stops the clock. -/
theorem Rule.clock_of_run (hr : Rule e move e' events) {task : Task}
    (ht : e.task? id = some task) (htime : punctual ⟨e, move, events, e'⟩ = true)
    (hrun : (e.run id).isSome = true ∨ (e.sent id (.ok ())).isSome = true) : e'.clock = e.clock := by
  refine hr.clock_eq fun d hd => ?_
  subst hd
  obtain ⟨h1, h2, -⟩ := of_punctual htime ht
  rw [h1, h2] at hrun
  obtain hrun | hrun := hrun <;> cases hrun

theorem acceptance?_self {task : Task} (ha : actor? move = some id)
    (ht : e.task? id = some task) (htask : ∀ x, task ≠ .receiving (.arrived x)) (j : TaskId) :
    acceptance? j ⟨e, move, events, e'⟩ = none := by
  rcases hacc : acceptance? j ⟨e, move, events, e'⟩ with _ | x
  · rfl
  · obtain ⟨k, _, hmove, -, hk, -, -⟩ := acceptance?_eq_some hacc
    simp only at hmove hk
    rw [hmove] at ha
    cases ha
    rw [ht] at hk
    exact absurd (Option.some.inj hk) (htask x)

end Entity

end ShortMessage.Control
