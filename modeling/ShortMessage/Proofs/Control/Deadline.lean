import ShortMessage.Proofs.Control.Tasks

/-!
# How long a request waits for its answer

A request whose data was acknowledged waits `answerTime` for its answer.  Every further
acknowledgement that it takes starts the wait anew, so what bounds the wait is not the first
acknowledgement but the last one (`Patient`, proved of every run by `patient_of_run`).  A side that
goes on acknowledging keeps a request waiting for as long as it likes: `overdue_acknowledgedTwice`
is a request that still waits when `answerTime` has gone by since its data was acknowledged.

The transport is done with every message at once, well or badly, and time passes on a virtual clock
(`timely`).
-/

namespace ShortMessage.Control

open Transaction

/-- Time passes only while no task can run and nothing is with the transport, and never past the
time at which a task stops waiting. -/
def timely (tr : Transit) : Bool :=
  match tr.move with
  | .elapse duration => tr.before.tasks.all fun t =>
    (tr.before.run t.1).isNone && (tr.before.sent t.1 (.ok ())).isNone &&
      (tr.before.deadline? t.1).all fun deadline => tr.before.clock + duration ≤ deadline
  | _ => true

/-! ## What a history says of a wait -/

/-- The messages that come in for a task, and when. -/
def receipts (h : List Transit) (id : TaskId) : List (Nat × Message) :=
  h.filterMap fun tr => (acceptance? id tr).map (tr.before.clock, ·)

/-- When the last message for a task came in. -/
def lastReceipt? (h : List Transit) (id : TaskId) : Option Nat := (receipts h id).getLast?.map (·.1)

/-- When the data of a task was acknowledged.  The first message for the task does that, unless it
is an error. -/
def acknowledged? (h : List Transit) (id : TaskId) : Option Nat :=
  match receipts h id with
  | [] | (_, .error _ _) :: _ => none
  | (time, _) :: _ => some time

/-- The steps of the task alone, without any time, lead from `e` to its return. -/
def Returns (e : Entity) (id : TaskId) (outcome : Outcome) : Prop :=
  ∃ moves h s, (∀ move ∈ moves, move = .run id ∨ move = .sent id (.ok ()) ∨ move = .expire id) ∧
    replay Entity.step? e moves = some (h, s) ∧ ∃ s', Returned h id s' (.sent outcome)

/-- How long messages to send wait in a history that leads to `e`. -/
structure Patient (config : Config) (h : List Transit) (e : Entity) : Prop where
  /-- Nothing is left of a message when `answerTime` has gone by since the last message for it. -/
  bounded : ∀ {id phase c}, e.task? id = some (.sending phase) → lastReceipt? h id = some c →
    e.clock ≤ c + config.answerTime
  /-- Nothing is left of it when `answerTime` has gone by since the first one, unless another
  message came later. -/
  hard : ∀ {id phase t}, e.task? id = some (.sending phase) → acknowledged? h id = some t →
    t + config.answerTime < e.clock → ∃ c x, (c, x) ∈ receipts h id ∧ t < c
  /-- The last acknowledgement says until when a request waits. -/
  deadline : ∀ {id s deadline}, e.task? id = some (.sending (.awaitingAnswer s deadline)) →
    e.outgoing.pending s.lease = [] →
    ∃ c, lastReceipt? h id = some c ∧ deadline = c + config.answerTime
  /-- A request may wait longer than `answerTime` after its data was acknowledged exactly when it
  was acknowledged again, later. -/
  overdue : ∀ {id s deadline}, e.task? id = some (.sending (.awaitingAnswer s deadline)) →
    e.outgoing.pending s.lease = [] → ∃ t, acknowledged? h id = some t ∧
      (t + config.answerTime < deadline ↔ ∃ c a, (c, a) ∈ receipts h id ∧ a.isAck = true ∧ t < c)
  /-- When the time has come, the request returns without its answer. -/
  ends : ∀ {id s deadline}, e.task? id = some (.sending (.awaitingAnswer s deadline)) →
    e.outgoing.pending s.lease = [] → deadline ≤ e.clock →
    Returns e id (.error (.relayCause .resourcesUnavailable))

/-! ## A history that grows by a step -/

section

variable {h : List Transit} {id : TaskId} {tr : Transit} {x : Message} {c : Nat}

theorem receipts_snoc : receipts (h ++ [tr]) id =
    receipts h id ++ ((acceptance? id tr).map (tr.before.clock, ·)).toList :=
  filterMap_snoc _

theorem receipts_snoc_of_none (hnone : acceptance? id tr = none) :
    receipts (h ++ [tr]) id = receipts h id := by
  rw [receipts_snoc, hnone]
  exact List.append_nil _

theorem lastReceipt?_snoc_of_none (hnone : acceptance? id tr = none) :
    lastReceipt? (h ++ [tr]) id = lastReceipt? h id := by
  unfold lastReceipt?
  rw [receipts_snoc_of_none hnone]

theorem lastReceipt?_snoc_of_some (hx : acceptance? id tr = some x) :
    lastReceipt? (h ++ [tr]) id = some tr.before.clock := by
  unfold lastReceipt?
  rw [receipts_snoc, hx]
  simp

theorem lastReceipt?_eq_none : lastReceipt? h id = none ↔ receipts h id = [] := by
  unfold lastReceipt?
  rw [Option.map_eq_none_iff, List.getLast?_eq_none_iff]

theorem acceptances_eq_map : acceptances h id = (receipts h id).map (·.2) := by
  unfold acceptances receipts
  rw [List.map_filterMap]
  refine congrArg (List.filterMap · h) (funext fun tr => ?_)
  cases acceptance? id tr <;> rfl

/-- The last message for a task, and when it came in. -/
theorem exists_of_lastReceipt? (hc : lastReceipt? h id = some c) :
    ∃ x, (c, x) ∈ receipts h id := by
  obtain ⟨⟨c', x⟩, hlast, rfl⟩ := Option.map_eq_some_iff.1 hc
  exact ⟨x, List.mem_of_getLast? hlast⟩

end

/-! ## When time can pass -/

namespace Entity

variable {e e' : Entity} {events : List (Event Message Result)} {id : TaskId} {phase : Sending}
  {s : Session} {deadline : Nat}

/-- A message to send that can do nothing now waits for a message of the other side. -/
theorem waits_of_idle (ht : e.task? id = some (.sending phase)) (hrun : e.run id = none)
    (hsent : e.sent id (.ok ()) = none) :
    (∃ s repeated deadline, phase = .delivering s (.awaiting repeated deadline) ∧
        e.outgoing.pending s.lease = []) ∨
      ∃ s deadline, phase = .awaitingAnswer s deadline ∧ e.outgoing.pending s.lease = [] := by
  simp only [run, ht] at hrun
  simp only [Entity.sent, ht] at hsent
  cases phase with
  | opening m => exact absurd hrun (openSession_ne_none e m)
  | delivering s handover =>
    cases handover with
    | transmitting repeated => cases hsent
    | awaiting repeated deadline =>
      simp only [runSending] at hrun
      split at hrun
      · exact absurd hrun (acknowledge_ne_none _ _ _)
      · rename_i htake
        exact .inl ⟨s, repeated, deadline, rfl, Table.take?_eq_none_iff.1 htake⟩
  | awaitingAnswer s deadline =>
    simp only [runSending] at hrun
    split at hrun
    · exact absurd hrun (takeAnswer_ne_none _ _ _)
    · rename_i htake
      exact .inr ⟨s, deadline, rfl, Table.take?_eq_none_iff.1 htake⟩
  | expired s =>
    simp only [runSending] at hrun
    split at hrun
    · exact absurd hrun (takeAnswer_ne_none _ _ _)
    · cases hrun
  | concluding lease outcome => cases hsent
  | closing lease outcome => cases hrun

theorem of_timely {duration : Nat} {task : Task}
    (htime : timely ⟨e, .elapse duration, events, e'⟩ = true) (ht : e.task? id = some task) :
    e.run id = none ∧ e.sent id (.ok ()) = none ∧ ∀ {deadline}, e.deadline? id = some deadline →
      e.clock + duration ≤ deadline :=
  @of_punctual e e' events id task duration htime ht

end Entity

/-! ## The invariant -/

section

variable {config : Config} {h : List Transit} {e e' : Entity} {id : TaskId} {move : Move Input}
  {events : List (Event Message Result)} {phase : Sending} {s : Session} {x : Message}

/-- What waits for a task came in just now. -/
def Current (h : List Transit) (e : Entity) (id : TaskId) (lease : Lease) : Prop :=
  e.outgoing.pending lease ≠ [] → lastReceipt? h id = some e.clock

/-- The time to wait since the last message for a task is not over yet. -/
def InTime (config : Config) (h : List Transit) (e : Entity) (id : TaskId) : Prop :=
  ∀ ⦃c⦄, lastReceipt? h id = some c → e.clock ≤ c + config.answerTime

/-- What the clock says of a message to send. -/
def Paced (config : Config) (h : List Transit) (e : Entity) (id : TaskId) : Sending → Prop
  | .opening _ => receipts h id = []
  | .delivering s _ => acceptances h id = e.outgoing.pending s.lease ∧ Current h e id s.lease
  | .awaitingAnswer s deadline => Waiting h e id s.lease ∧ Current h e id s.lease ∧
    InTime config h e id ∧ ∃ c, lastReceipt? h id = some c ∧
      (e.outgoing.pending s.lease = [] → deadline = c + config.answerTime)
  | .expired s => Waiting h e id s.lease ∧ Current h e id s.lease ∧ InTime config h e id
  | .concluding _ _ | .closing _ _ => InTime config h e id

theorem inTime_of_nil (hnil : receipts h id = []) : InTime config h e id := by
  intro c hc
  rw [lastReceipt?_eq_none.2 hnil] at hc
  cases hc

theorem inTime_of_now (hlast : lastReceipt? h id = some e.clock) : InTime config h e id := by
  intro c hc
  rw [hlast] at hc
  cases hc
  exact Nat.le_add_right _ _

theorem Paced.inTime (hp : Paced config h e id phase) : InTime config h e id := by
  cases phase with
  | opening m => exact inTime_of_nil hp
  | delivering s handover =>
    obtain ⟨hacc, hcurrent⟩ := hp
    by_cases hpending : e.outgoing.pending s.lease = []
    · rw [hpending, acceptances_eq_map, List.map_eq_nil_iff] at hacc
      exact inTime_of_nil hacc
    · exact inTime_of_now (hcurrent hpending)
  | awaitingAnswer s deadline => exact hp.2.2.1
  | expired s => exact hp.2.2
  | concluding lease outcome => exact hp
  | closing lease outcome => exact hp

/-! ### Steps of others -/

/-- A message comes in for a task. -/
theorem Paced.receive (hp : Paced config h e id phase) (ho : e.Orderly)
    (hr : Entity.Rule e move e' events) (hid : actor? move ≠ some id)
    (ht : e.task? id = some (.sending phase))
    (hx : acceptance? id ⟨e, move, events, e'⟩ = some x) :
    Paced config (h ++ [⟨e, move, events, e'⟩]) e' id phase := by
  obtain ⟨_, _, hmove, -, -, -, hholds⟩ := Entity.acceptance?_eq_some hx
  simp only at hmove hholds
  have hclock : e'.clock = e.clock := hr.clock_eq fun d hd => by rw [hd] at hmove; cases hmove
  have hlast : lastReceipt? (h ++ [⟨e, move, events, e'⟩]) id = some e'.clock := by
    rw [lastReceipt?_snoc_of_some hx, hclock]
  have hacc : acceptances (h ++ [⟨e, move, events, e'⟩]) id = acceptances h id ++ [x] := by
    rw [acceptances_snoc, hx]
    rfl
  have hpending {lease : Lease} (hl : e.leaseOut? id = some lease) :
      e'.outgoing.pending lease = e.outgoing.pending lease ++ [x] := by
    rw [hr.pending_of_ne ho hid hl, hx]
    rfl
  have hwaiting {lease : Lease} (hl : e.leaseOut? id = some lease) (hw : Waiting h e id lease) :
      Waiting (h ++ [⟨e, move, events, e'⟩]) e' id lease := by
    obtain ⟨acks, hacks, heq⟩ := hw
    exact ⟨acks, hacks, by rw [hacc, heq, hpending hl, List.append_assoc]⟩
  have hl := Entity.leaseOut?_eq ht
  cases phase with
  | opening m =>
    obtain ⟨holder, hl', -⟩ := Entity.holds_iff.1 hholds
    rw [hl] at hl'
    cases hl'
  | delivering s handover =>
    exact ⟨by rw [hacc, hp.1, hpending hl], fun _ => hlast⟩
  | awaitingAnswer s deadline =>
    refine ⟨hwaiting hl hp.1, fun _ => hlast, inTime_of_now hlast, _, hlast, fun hnil => ?_⟩
    rw [hpending hl] at hnil
    simp at hnil
  | expired s => exact ⟨hwaiting hl hp.1, fun _ => hlast, inTime_of_now hlast⟩
  | concluding lease outcome => exact inTime_of_now hlast
  | closing lease outcome => exact inTime_of_now hlast

/-- Nothing comes in for a task, and no time passes. -/
theorem Paced.still {tr : Transit} (hp : Paced config h e id phase)
    (hnone : acceptance? id tr = none) (hclock : e'.clock = e.clock)
    (hpending : ∀ {lease}, Entity.outgoingLease? (.sending phase) = some lease →
      e'.outgoing.pending lease = e.outgoing.pending lease) :
    Paced config (h ++ [tr]) e' id phase := by
  have hlast := lastReceipt?_snoc_of_none (h := h) hnone
  have hacc : acceptances (h ++ [tr]) id = acceptances h id := by
    rw [acceptances_snoc, hnone]
    exact List.append_nil _
  have hin (hin : InTime config h e id) : InTime config (h ++ [tr]) e' id := by
    intro c hc
    rw [hlast] at hc
    rw [hclock]
    exact hin hc
  have hcurrent {lease : Lease} (hl : Entity.outgoingLease? (.sending phase) = some lease)
      (hcur : Current h e id lease) : Current (h ++ [tr]) e' id lease := by
    intro hne
    rw [hpending hl] at hne
    rw [hlast, hclock]
    exact hcur hne
  have hwaiting {lease : Lease} (hl : Entity.outgoingLease? (.sending phase) = some lease)
      (hw : Waiting h e id lease) : Waiting (h ++ [tr]) e' id lease := by
    obtain ⟨acks, hacks, heq⟩ := hw
    exact ⟨acks, hacks, by rw [hacc, heq, hpending hl]⟩
  cases phase with
  | opening m => exact (receipts_snoc_of_none hnone).trans hp
  | delivering s handover => exact ⟨by rw [hacc, hp.1, hpending rfl], hcurrent rfl hp.2⟩
  | awaitingAnswer s deadline =>
    obtain ⟨hw, hcur, hit, c, hc, hd⟩ := hp
    refine ⟨hwaiting rfl hw, hcurrent rfl hcur, hin hit, c, hlast.trans hc, fun hnil => hd ?_⟩
    rw [← hpending rfl]
    exact hnil
  | expired s => exact ⟨hwaiting rfl hp.1, hcurrent rfl hp.2.1, hin hp.2.2⟩
  | concluding lease outcome => exact hin hp
  | closing lease outcome => exact hin hp

/-- Time passes, but not too much of it. -/
theorem Paced.elapse {duration : Nat} (hp : Paced config h e id phase)
    (ht : e.task? id = some (.sending phase))
    (htime : timely ⟨e, .elapse duration, [], { e with clock := e.clock + duration }⟩ = true) :
    Paced config (h ++ [⟨e, .elapse duration, [], { e with clock := e.clock + duration }⟩])
      { e with clock := e.clock + duration } id phase := by
  have hnone : acceptance? id ⟨e, .elapse duration, [], { e with clock := e.clock + duration }⟩ =
      none := rfl
  have hacc : acceptances (h ++ [⟨e, .elapse duration, [],
      { e with clock := e.clock + duration }⟩]) id = acceptances h id := by
    rw [acceptances_snoc, hnone]
    exact List.append_nil _
  obtain ⟨hrun, hsent, hdue⟩ := Entity.of_timely htime ht
  obtain ⟨s, repeated, deadline, rfl, hnil⟩ | ⟨s, deadline, rfl, hnil⟩ :=
    Entity.waits_of_idle ht hrun hsent
  · exact ⟨hacc.trans hp.1, fun hne => absurd hnil hne⟩
  · obtain ⟨⟨acks, hacks, heq⟩, -, -, c, hc, hd⟩ := hp
    have hlast := (lastReceipt?_snoc_of_none (h := h) hnone).trans hc
    refine ⟨⟨acks, hacks, hacc.trans heq⟩, fun hne => absurd hnil hne, ?_, c, hlast, hd⟩
    intro c' hc'
    rw [hlast] at hc'
    cases hc'
    rw [← hd hnil]
    exact hdue (by simp [Entity.deadline?, ht])

theorem Paced.of_ne (hp : Paced config h e id phase) (ho : e.Orderly)
    (hr : Entity.Rule e move e' events) (hid : actor? move ≠ some id)
    (ht : e.task? id = some (.sending phase)) (htime : timely ⟨e, move, events, e'⟩ = true) :
    Paced config (h ++ [⟨e, move, events, e'⟩]) e' id phase := by
  by_cases hmove : ∃ duration, move = .elapse duration
  · obtain ⟨duration, rfl⟩ := hmove
    cases hr with
    | act _ ha => cases ha
    | elapsed => exact hp.elapse ht htime
  · cases hx : acceptance? id ⟨e, move, events, e'⟩ with
    | some x => exact hp.receive ho hr hid ht hx
    | none =>
      refine hp.still hx (hr.clock_eq fun d hd => hmove ⟨d, hd⟩) fun {lease} hl => ?_
      rw [hr.pending_of_ne ho hid ((Entity.leaseOut?_eq ht).trans hl), hx]
      exact List.append_nil _

/-! ### Steps of the task itself -/

/-- What the next message of the other side leads to, at the time at which it came in. -/
theorem Paced.follow {confirmed : Bool} {word : Option Message} {rest : List Message} {tr : Transit}
    (hf : Entity.Follow e s confirmed x phase word) (hw : Waiting h e id s.lease)
    (hcurrent : Current h e id s.lease) (hconfig : e.config = config)
    (hpending : e.outgoing.pending s.lease = x :: rest)
    (hrest : e'.outgoing.pending s.lease = rest) (hclock : e'.clock = e.clock)
    (hnone : acceptance? id tr = none) : Paced config (h ++ [tr]) e' id phase := by
  have hlast : lastReceipt? (h ++ [tr]) id = some e'.clock := by
    rw [lastReceipt?_snoc_of_none hnone, hclock]
    exact hcurrent (by simp [hpending])
  cases hf with
  | @waits t _ =>
    refine ⟨?_, fun _ => hlast, inTime_of_now hlast, _, hlast, fun _ => by rw [hclock, hconfig]⟩
    obtain ⟨acks, hacks, heq⟩ := hw
    refine ⟨acks ++ [.ack t], ?_, ?_⟩
    · intro a ha
      rcases List.mem_append.1 ha with ha | ha
      · exact hacks a ha
      · rw [List.mem_singleton.1 ha]
        rfl
    · rw [acceptances_snoc, hnone, heq, hpending, hrest]
      simp
  | ended => exact inTime_of_now hlast
  | arrived => exact inTime_of_now hlast
  | answered => exact inTime_of_now hlast
  | refused => exact inTime_of_now hlast

theorem Paced.step {task' : Option Task} {outgoing incoming : Table Message Unit}
    {phase' : Sending} (hp : Paced config h e id phase) (ho : e.Orderly)
    (hconfig : e.config = config)
    (ha : Entity.Act e id move (.sending phase) task' outgoing incoming events)
    (ht : e.task? id = some (.sending phase)) (he : e' = e.settle id task' outgoing incoming)
    (hphase : task' = some (.sending phase')) :
    Paced config (h ++ [⟨e, move, events, e'⟩]) e' id phase' := by
  have hnone : acceptance? id ⟨e, move, events, e'⟩ = none :=
    Entity.acceptance?_self ha.actor ht (by rintro x ⟨⟩) id
  have hout : e'.outgoing = outgoing := by rw [he, Entity.outgoing_settle]
  have hclock : e'.clock = e.clock := by rw [he, Entity.clock_settle]
  have hacc : acceptances (h ++ [⟨e, move, events, e'⟩]) id = acceptances h id := by
    rw [acceptances_snoc, hnone]
    exact List.append_nil _
  -- whatever the phase, the wait is not over
  have hin : InTime config (h ++ [⟨e, move, events, e'⟩]) e' id := by
    intro c hc
    rw [lastReceipt?_snoc_of_none hnone] at hc
    rw [hclock]
    exact hp.inTime hc
  cases ha with
  | opened hl hd =>
    cases hphase
    have hempty := (ho.outgoing.sound.leased_of_lease? hl).pending
    refine ⟨?_, fun hne => ?_⟩
    · rw [hacc, acceptances_eq_map, hp, hout, hempty, if_pos rfl]
      rfl
    · rw [hout, hempty, if_pos rfl] at hne
      exact absurd rfl hne
  | delivered htake hf =>
    cases hphase
    exact Paced.follow hf ⟨[], by simp, hp.1⟩ hp.2 hconfig (Table.pending_take? htake)
      (by rw [hout])
      hclock hnone
  | took htake hf =>
    cases hphase
    exact Paced.follow hf hp.1 hp.2.1 hconfig (Table.pending_take? htake) (by rw [hout])
      hclock hnone
  | tookLate hret hf =>
    cases hphase
    rw [Table.retire_fst] at hret
    obtain ⟨rest, hpending⟩ := List.head?_eq_some_iff.1 hret
    refine Paced.follow hf hp.1 hp.2.1 hconfig hpending ?_ hclock hnone
    rw [hout, Table.pending_retire, if_pos rfl, hpending, List.tail_cons]
  | transmitted | repeated =>
    cases hphase
    have hstill := hp.still hnone hclock fun _ => congrArg (Table.pending · _) hout
    exact hstill
  | lapsed hpending =>
    cases hphase
    obtain ⟨acks, hacks, heq⟩ := hp.1
    refine ⟨⟨acks, hacks, by rw [hacc, heq, hout]⟩, fun hne => ?_, hin⟩
    rw [hout] at hne
    exact absurd hpending hne
  | expired _ hpending =>
    cases hphase
    obtain ⟨acks, hacks, heq⟩ := hp.1
    refine ⟨⟨acks, hacks, by rw [hacc, heq, hout]⟩, fun hne => ?_, hin⟩
    rw [hout] at hne
    exact absurd hpending hne
  | congested | closed | aborted => cases hphase
  | _ =>
    cases hphase
    exact hin

/-! ### Runs -/

/-- What holds along every run. -/
structure Clocked (config : Config) (h : List Transit) (e : Entity) : Prop where
  orderly : e.Orderly
  config_eq : e.config = config
  fresh : ∀ {id}, e.started ≤ id → receipts h id = []
  past : ∀ {id r}, r ∈ receipts h id → r.1 ≤ e.clock
  sorted : ∀ {id}, (receipts h id).Pairwise fun r r' => r.1 ≤ r'.1
  paced : ∀ {id phase}, e.task? id = some (.sending phase) → Paced config h e id phase

theorem clocked_ofConfig (config : Config) : Clocked config [] (.ofConfig config) where
  orderly := Entity.orderly_ofConfig config
  config_eq := rfl
  fresh _ := rfl
  past := by rintro _ _ ⟨⟩
  sorted := .nil
  paced := by rintro _ _ ⟨⟩

theorem Entity.Rule.clock_le (hr : Entity.Rule e move e' events) : e.clock ≤ e'.clock := by
  by_cases hmove : ∃ duration, move = .elapse duration
  · obtain ⟨duration, rfl⟩ := hmove
    cases hr with
    | act _ ha => cases ha
    | elapsed => exact Nat.le_add_right _ _
  · exact Nat.le_of_eq (hr.clock_eq fun d hd => hmove ⟨d, hd⟩).symm

/-- A message that has come in now has come in last. -/
theorem Clocked.mem_receipts {r : Nat × Message} (hc : Clocked config h e)
    (hr : r ∈ receipts (h ++ [⟨e, move, events, e'⟩]) id) : r.1 ≤ e.clock := by
  rw [receipts_snoc] at hr
  rcases List.mem_append.1 hr with hr | hr
  · exact hc.past hr
  · obtain ⟨x, -, rfl⟩ := Option.map_eq_some_iff.1 (Option.mem_toList.1 hr)
    exact Nat.le_refl _

theorem Clocked.sorted_step (hc : Clocked config h e) :
    (receipts (h ++ [⟨e, move, events, e'⟩]) id).Pairwise fun r r' => r.1 ≤ r'.1 := by
  rw [receipts_snoc]
  refine List.pairwise_append.2 ⟨hc.sorted, ?_, fun r hr r' hr' => ?_⟩
  · cases acceptance? id ⟨e, move, events, e'⟩ <;> simp
  · obtain ⟨x, -, rfl⟩ := Option.map_eq_some_iff.1 (Option.mem_toList.1 hr')
    exact hc.past hr

theorem Clocked.paced_step (hc : Clocked config h e) (hr : Entity.Rule e move e' events)
    (htime : timely ⟨e, move, events, e'⟩ = true) (ht' : e'.task? id = some (.sending phase)) :
    Paced config (h ++ [⟨e, move, events, e'⟩]) e' id phase := by
  by_cases hactor : actor? move = some id
  · obtain ⟨phase0, outgoing, incoming, ht, ha, rfl⟩ := hr.sending_self hactor ht'
    exact (hc.paced ht).step hc.orderly hc.config_eq ha ht rfl rfl
  · obtain ht | ⟨m, rfl, rfl, rfl⟩ := hr.sending_of_ne hc.orderly hactor ht'
    · exact (hc.paced ht).of_ne hc.orderly hr hactor ht htime
    · show receipts _ _ = []
      rw [receipts_snoc_of_none (hr.absent (hc.orderly.fresh (Nat.le_refl _))).2]
      exact hc.fresh (Nat.le_refl _)

theorem Clocked.step (hc : Clocked config h e) (hs : e.step? move = some (e', events))
    (htime : timely ⟨e, move, events, e'⟩ = true) :
    Clocked config (h ++ [⟨e, move, events, e'⟩]) e' := by
  have hr := Entity.rule_of_step? hs
  refine ⟨hc.orderly.step hr, hr.config_eq.trans hc.config_eq, fun {id} hid => ?_,
    fun hmem => Nat.le_trans (hc.mem_receipts hmem) hr.clock_le, hc.sorted_step,
    hc.paced_step hr htime⟩
  have hid' : e.started ≤ id := Nat.le_trans hr.started_le hid
  rw [receipts_snoc_of_none (hr.absent (hc.orderly.fresh hid')).2]
  exact hc.fresh hid'

theorem clocked_of_run (hrun : Run Entity.step? (.ofConfig config) h e)
    (htime : ∀ tr ∈ h, timely tr = true) : Clocked config h e :=
  hrun.invariant htime (clocked_ofConfig config) Clocked.step

/-! ## Returning -/

theorem Returns.cons {outcome : Outcome}
    (hmove : move = .run id ∨ move = .sent id (.ok ()) ∨ move = .expire id)
    (hs : e.step? move = some (e', events)) (hr : Returns e' id outcome) :
    Returns e id outcome := by
  obtain ⟨moves, k, s, hall, hreplay, s', tr, htr, hret⟩ := hr
  refine ⟨move :: moves, ⟨e, move, events, e'⟩ :: k, s, ?_, ?_, s', tr, ?_, hret⟩
  · rintro m (_ | ⟨_, hm⟩)
    · exact hmove
    · exact hall m hm
  · simp [replay, hs, hreplay]
  · exact List.mem_cons_of_mem _ htr

theorem returns_of_closing {lease : Lease} {outcome : Outcome}
    (ht : e.task? id = some (.sending (.closing lease outcome))) : Returns e id outcome := by
  have hs : e.step? (.run id) =
      some (({ e with outgoing := e.outgoing.drop lease } : Entity).remove id,
        [.returned id (.sent outcome)]) := by
    simp [Entity.step?, Entity.run, ht, Entity.runSending, Entity.finish]
  exact ⟨[.run id], _, _, by simp, by rw [replay, hs]; rfl, e, _, List.mem_singleton.2 rfl, rfl,
    List.mem_singleton.2 rfl⟩

/-- A request for which nothing has come returns without its answer when its time is over. -/
theorem returns_of_due {deadline : Nat}
    (ht : e.task? id = some (.sending (.awaitingAnswer s deadline)))
    (hnil : e.outgoing.pending s.lease = []) (hdue : deadline ≤ e.clock) :
    Returns e id (.error (.relayCause .resourcesUnavailable)) := by
  have hexpire : e.step? (.expire id) = some (e.put id (.sending (.expired s)), []) := by
    simp [Entity.step?, Entity.expire, ht, hdue, hnil, Entity.become]
  have hexpired : (e.put id (.sending (.expired s))).task? id = some (.sending (.expired s)) :=
    Entity.task?_put_self ht
  obtain ⟨outgoing, hlate⟩ : ∃ outgoing, e.outgoing.retire s.lease = (none, outgoing) := by
    refine ⟨_, Prod.ext ?_ rfl⟩
    rw [Table.retire_fst, hnil]
    rfl
  have hretire : (e.put id (.sending (.expired s))).step? (.run id) =
      some ((({ e.put id (.sending (.expired s)) with outgoing } : Entity).put id
        (.sending (.closing s.lease (.error (.relayCause .resourcesUnavailable))))), []) := by
    have hout : (e.put id (.sending (.expired s))).outgoing = e.outgoing := rfl
    simp only [Entity.step?, Entity.run, hexpired, Entity.runSending, hout, hlate]
    rfl
  exact Returns.cons (.inr (.inr rfl)) hexpire
    (Returns.cons (.inl rfl) hretire (returns_of_closing (Entity.task?_put_self hexpired)))

/-! ## The result -/

theorem Clocked.le_last {c : Nat} {r : Nat × Message} (hc : Clocked config h e)
    (hlast : lastReceipt? h id = some c) (hr : r ∈ receipts h id) : r.1 ≤ c := by
  obtain ⟨⟨c', x⟩, hget, rfl⟩ := Option.map_eq_some_iff.1 hlast
  obtain ⟨front, heq⟩ := List.getLast?_eq_some_iff.1 hget
  have hsorted : (receipts h id).Pairwise fun r r' => r.1 ≤ r'.1 := hc.sorted
  rw [heq] at hr hsorted
  rcases List.mem_append.1 hr with hr | hr
  · exact (List.pairwise_append.1 hsorted).2.2 r hr _ (List.mem_singleton.2 rfl)
  · obtain rfl := List.mem_singleton.1 hr
    exact Nat.le_refl _

theorem Clocked.later_of_overdue {t : Nat} (hc : Clocked config h e)
    (ht : e.task? id = some (.sending phase)) (hack : acknowledged? h id = some t)
    (hlate : t + config.answerTime < e.clock) : ∃ c x, (c, x) ∈ receipts h id ∧ t < c := by
  cases hlast : lastReceipt? h id with
  | none =>
    unfold acknowledged? at hack
    rw [lastReceipt?_eq_none.1 hlast] at hack
    cases hack
  | some c =>
    obtain ⟨x, hx⟩ := exists_of_lastReceipt? hlast
    have hle := (hc.paced ht).inTime hlast
    exact ⟨c, x, hx, by omega⟩

/-- All that has come for a request which waits for its answer is acknowledgements. -/
theorem Clocked.isAck_of_mem {deadline : Nat} {r : Nat × Message} (hc : Clocked config h e)
    (ht : e.task? id = some (.sending (.awaitingAnswer s deadline)))
    (hnil : e.outgoing.pending s.lease = []) (hr : r ∈ receipts h id) : r.2.isAck = true := by
  obtain ⟨acks, hacks, heq⟩ := (hc.paced ht).1
  rw [hnil, List.append_nil, acceptances_eq_map] at heq
  exact hacks _ (heq ▸ List.mem_map_of_mem hr)

/-- However messages come in, a request waits until `answerTime` after the last acknowledgement that
has come for it, and no longer. -/
theorem patient_of_run (hrun : Run Entity.step? (.ofConfig config) h e)
    (htime : ∀ tr ∈ h, timely tr = true) : Patient config h e := by
  have hc := clocked_of_run hrun htime
  refine ⟨fun ht hlast => (hc.paced ht).inTime hlast, hc.later_of_overdue, fun ht hnil => ?_,
    fun {id s deadline} ht hnil => ?_, returns_of_due⟩
  · obtain ⟨-, -, -, c, hlast, hd⟩ := hc.paced ht
    exact ⟨c, hlast, hd hnil⟩
  · obtain ⟨-, -, -, c, hlast, hd⟩ := hc.paced ht
    obtain ⟨a, hmem⟩ := exists_of_lastReceipt? hlast
    have hack {r : Nat × Message} (hr : r ∈ receipts h id) : r.2.isAck = true :=
      hc.isAck_of_mem ht hnil hr
    have hfirst : ∃ t, acknowledged? h id = some t := by
      unfold acknowledged?
      split
      · rename_i hempty
        rw [hempty] at hmem
        cases hmem
      · rename_i time t' cause rest heq
        have hfalse := hack (r := (time, .error t' cause)) (by rw [heq]; exact List.mem_cons_self)
        cases hfalse
      · exact ⟨_, rfl⟩
    obtain ⟨t, ht'⟩ := hfirst
    refine ⟨t, ht', ?_⟩
    rw [hd hnil]
    constructor
    · intro hlate
      exact ⟨c, a, hmem, hack hmem, by omega⟩
    · rintro ⟨c', a', hmem', -, hlater⟩
      have hle := hc.le_last hlast hmem'
      simp only at hle
      omega

/-- A request is acknowledged, and a second time shortly before it would give up. -/
def acknowledgedTwice : List (Move Input) :=
  [.start (.send (.memoryAvailable 7)), .run 0, .sent 0 (.ok ()), .start (.receive (.ack ⟨true, 0⟩)),
    .run 1, .run 0, .elapse 34000, .start (.receive (.ack ⟨true, 0⟩)), .run 2, .run 0, .elapse 2000]

theorem patient_acknowledgedTwice :
    ∃ h e, replay Entity.step? (.ofConfig {}) acknowledgedTwice = some (h, e) ∧
      (∀ tr ∈ h, timely tr = true) ∧ Patient {} h e ∧
      receipts h 0 = [(0, .ack ⟨true, 0⟩), (34000, .ack ⟨true, 0⟩)] ∧
      e.deadline? 0 = some 69000 := by
  have hall : (replay Entity.step? (.ofConfig {}) acknowledgedTwice).any (fun r =>
      r.1.all timely && receipts r.1 0 == [(0, .ack ⟨true, 0⟩), (34000, .ack ⟨true, 0⟩)] &&
        r.2.deadline? 0 == some 69000) = true := by
    decide +kernel
  obtain ⟨h, e, hr, hrun, hc⟩ := exists_run_of_replay hall
  simp only [Bool.and_eq_true, List.all_eq_true, beq_iff_eq] at hc
  exact ⟨h, e, hr, hc.1.1, patient_of_run hrun hc.1.1, hc.1.2, hc.2⟩

/-- The first acknowledgement bounds no wait: a request acknowledged at 0 ms still waits at
36000 ms. -/
theorem overdue_acknowledgedTwice :
    ¬∀ config h e, Run Entity.step? (.ofConfig config) h e → (∀ tr ∈ h, timely tr = true) →
      ∀ id m phase t, message? h id = some m → m.isRequest = true →
        e.task? id = some (.sending phase) → acknowledged? h id = some t →
        e.clock ≤ t + config.answerTime := by
  intro hbound
  have hall : (replay Entity.step? (.ofConfig {}) acknowledgedTwice).any (fun r =>
      r.1.all timely && message? r.1 0 == some (.memoryAvailable 7) &&
        acknowledged? r.1 0 == some 0 && r.2.clock == 36000 && (r.2.leaseOut? 0).isSome) = true := by
    decide +kernel
  obtain ⟨h, e, -, hrun, hc⟩ := exists_run_of_replay hall
  simp only [Bool.and_eq_true, List.all_eq_true, beq_iff_eq] at hc
  obtain ⟨⟨⟨⟨htime, hm⟩, hack⟩, hclock⟩, hlease⟩ := hc
  obtain ⟨lease, hlease⟩ := Option.isSome_iff_exists.1 hlease
  obtain ⟨task, ht, hout⟩ := Option.bind_eq_some_iff.1 hlease
  cases task with
  | sending phase =>
    have hle := hbound {} h e hrun htime 0 _ _ 0 hm rfl ht hack
    rw [hclock] at hle
    exact absurd hle (by decide)
  | serving | receiving => cases hout

end

end ShortMessage.Control
