import ShortMessage.Proofs.Control.Tasks
import ShortMessage.Proofs.Control.Trace

/-!
# What sending a message looks like

`trace_of_run` describes all that a control entity lets others see of a message that it sends: the
copies of the data, each `ackTime` after the one before, and the last word on the transaction; and
says which of these a result stands for (`Complete`).  The first message of the other side that is
no acknowledgement decides (`decisive`); whatever comes behind it counts no more.

Time passes on a virtual clock, and the transport is done with every message at once (`punctual`).
-/

namespace ShortMessage.Control

open Transaction

/-- What others see of a message fits what it comes to. -/
structure Explained (config : Config) (h : List Transit) (now : Nat) (id : TaskId)
    (m : Relay.Message) (t : TransactionId) (payload : Octets) (start count : Nat)
    (last : Option (Nat × Message)) (outcome : Outcome) : Prop where
  trace : Trace config h id m t payload start count last
  /-- The last word is an acknowledgement or an error. -/
  last_eq : ∀ {time x}, last = some (time, x) → x = .ack t ∨ ∃ cause, x = .error t cause
  /-- The answer is acknowledged, and nothing else is. -/
  ack_iff : (∃ time, last = some (time, .ack t)) ↔ ∃ answer, outcome = .ok (some answer)
  /-- Data that is no answer is refused, and nothing else is. -/
  error_iff : ∀ {cause}, (∃ time, last = some (time, .error t cause)) ↔
    outcome = .error (.control cause) ∧ ∃ t' reply, decisive h id = some (.data t' reply) ∧
      judgeAnswer m reply = .error cause
  /-- An answer was carried by data on the same transaction, and fits the request. -/
  answer : ∀ {answer}, outcome = .ok (some answer) → m.isRequest = true ∧
    (∃ reply, .data t.reverse reply ∈ acceptances h id ∧
      Relay.Message.ofOctets reply = .ok answer) ∧
    answer.isRequest = false ∧ answer.direction = m.direction.reverse ∧
    answer.reference = m.reference
  /-- Only what asks for no answer comes to none. -/
  no_answer : outcome = .ok none → m.isRequest = false
  /-- A failure of the network was told by the other side, or all copies were in vain. -/
  network : outcome = .error (.control .networkFailure) →
    .error t.reverse .networkFailure ∈ acceptances h id ∨
      count = 1 + config.maxRetransmissions ∧ now = start + count * config.ackTime

/-- What others see of every message to send, running or not, in a history that leads to `e`. -/
structure Complete (config : Config) (h : List Transit) (e : Entity) : Prop where
  /-- As long as the outcome is open, there are copies at most. -/
  undecided : ∀ {id phase}, e.task? id = some (.sending phase) → phase.outcome? = none →
    ∃ m, message? h id = some m ∧ (sendings h id = [] ∨
      ∃ t payload start count, Trace config h id m t payload start count none)
  /-- An outcome that was not returned yet is explained already. -/
  decided : ∀ {id phase outcome}, e.task? id = some (.sending phase) →
    phase.outcome? = some outcome → ∃ m, message? h id = some m ∧
      ((sendings h id = [] ∧ ∃ fault, m.encode = .error fault ∧
          outcome = .error (.codec fault)) ∨
        ∃ t payload start count last,
          Explained config h e.clock id m t payload start count last outcome)
  /-- Nothing is sent when no transaction is free or the message cannot be written; everything else
  that is returned is explained. -/
  returned : ∀ {id s outcome}, Returned h id s (.sent outcome) → ∃ m, message? h id = some m ∧
    ((sendings h id = [] ∧ (∀ i < transactionCount, (s.outgoing.holder? i).isSome) ∧
        outcome = .error (.relayCause .congestion)) ∨
      (sendings h id = [] ∧ ∃ fault, m.encode = .error fault ∧
        outcome = .error (.codec fault)) ∨
      ∃ t payload start count last,
        Explained config h s.clock id m t payload start count last outcome)
  /-- A message that finds no transaction free returns at once. -/
  refused : ∀ {id m}, e.task? id = some (.sending (.opening m)) →
    (∀ i < transactionCount, (e.outgoing.holder? i).isSome) →
    e.run id = some (e.remove id, [.returned id (.sent (.error (.relayCause .congestion)))])

/-! ## The invariant -/

section

variable {config : Config} {h : List Transit} {e e' s : Entity} {id : TaskId} {m : Relay.Message}
  {move : Move Input} {events : List (Event Message Result)} {phase : Sending} {outcome : Outcome}

/-- What a task comes to that sends `m` and returns in the state `s`. -/
def Conclusion (config : Config) (h : List Transit) (s : Entity) (id : TaskId)
    (m : Relay.Message) (outcome : Outcome) : Prop :=
  (sendings h id = [] ∧ (∀ i < transactionCount, (s.outgoing.holder? i).isSome) ∧
      outcome = .error (.relayCause .congestion)) ∨
    ∃ t, Verdict config h s.clock id m t outcome

/-- What holds along every run. -/
structure Invariant (config : Config) (h : List Transit) (e : Entity) : Prop where
  orderly : e.Orderly
  config_eq : e.config = config
  fresh : ∀ {id}, e.started ≤ id → input? Entity.started h id = none ∧ sendings h id = [] ∧
    acceptances h id = []
  staged : ∀ {id phase}, e.task? id = some (.sending phase) →
    ∃ m, message? h id = some m ∧ Stage config h e id m phase
  gone : ∀ {id s result}, Returned h id s result → e.task? id = none ∧ id < e.started
  concluded : ∀ {id s outcome}, Returned h id s (.sent outcome) →
    ∃ m, message? h id = some m ∧ Conclusion config h s id m outcome

theorem invariant_ofConfig (config : Config) : Invariant config [] (.ofConfig config) where
  orderly := Entity.orderly_ofConfig config
  config_eq := rfl
  fresh _ := ⟨rfl, rfl, rfl⟩
  staged h := by cases h
  gone := by rintro id s result ⟨tr, htr, -⟩; cases htr
  concluded := by rintro id s outcome ⟨tr, htr, -⟩; cases htr

theorem Invariant.fresh_step (hi : Invariant config h e) (hr : Entity.Rule e move e' events)
    (hid : e'.started ≤ id) : input? Entity.started (h ++ [⟨e, move, events, e'⟩]) id = none ∧
      sendings (h ++ [⟨e, move, events, e'⟩]) id = [] ∧
      acceptances (h ++ [⟨e, move, events, e'⟩]) id = [] := by
  have hid' : e.started ≤ id := Nat.le_trans hr.started_le hid
  obtain ⟨hin, hsend, hacc⟩ := hi.fresh hid'
  obtain ⟨hactor, hnone⟩ := hr.absent (hi.orderly.fresh hid')
  refine ⟨?_, (sendings_snoc_of_nil (hr.emits_nothing hactor)).trans hsend, ?_⟩
  · obtain ⟨input, -, -, hlt⟩ | hsame := hr.input?_eq h id
    · exact absurd hid (Nat.not_le.2 (hlt ▸ Nat.lt_succ_self id))
    · exact hsame.trans hin
  · rw [acceptances_snoc, hacc, hnone]
    rfl

/-- After a step every message to send stands where its history says. -/
theorem Invariant.staged_step (hi : Invariant config h e) (hr : Entity.Rule e move e' events)
    (htime : punctual ⟨e, move, events, e'⟩ = true) (ht' : e'.task? id = some (.sending phase)) :
    ∃ m, message? (h ++ [⟨e, move, events, e'⟩]) id = some m ∧
      Stage config (h ++ [⟨e, move, events, e'⟩]) e' id m phase := by
  by_cases hactor : actor? move = some id
  · obtain ⟨phase0, outgoing, incoming, ht, ha, rfl⟩ := hr.sending_self hactor ht'
    obtain ⟨m, hm, hs⟩ := hi.staged ht
    exact ⟨m, message?_snoc_of_some hm, hs.step hi.orderly hi.config_eq ha ht rfl htime rfl⟩
  · obtain ht | ⟨m, rfl, rfl, rfl⟩ := hr.sending_of_ne hi.orderly hactor ht'
    · obtain ⟨m, hm, hs⟩ := hi.staged ht
      exact ⟨m, message?_snoc_of_some hm, hs.of_ne hi.orderly hr hactor ht htime⟩
    · obtain ⟨hin, hsend, hacc⟩ := hi.fresh (Nat.le_refl e.started)
      refine ⟨m, ?_, rfl, ?_, ?_⟩
      · unfold message?
        rw [input?_snoc_of_start hin rfl rfl]
        rfl
      · exact (sendings_snoc_of_nil (hr.emits_nothing hactor)).trans hsend
      · rw [acceptances_snoc, hacc, (hr.absent (hi.orderly.fresh (Nat.le_refl _))).2]
        rfl

/-- What a task returns was decided before, and its history says why. -/
theorem Invariant.concluded_step (hi : Invariant config h e) (hr : Entity.Rule e move e' events)
    (hret : Returned (h ++ [⟨e, move, events, e'⟩]) id s (.sent outcome)) :
    ∃ m, message? (h ++ [⟨e, move, events, e'⟩]) id = some m ∧
      Conclusion config (h ++ [⟨e, move, events, e'⟩]) s id m outcome := by
  obtain hold | ⟨rfl, hnew⟩ := returned_snoc.1 hret
  · obtain ⟨m, hm, hc⟩ := hi.concluded hold
    obtain ⟨hactor, hnone⟩ := hr.absent (hi.gone hold).1
    have hem := hr.emits_nothing hactor
    refine ⟨m, message?_snoc_of_some hm, ?_⟩
    obtain ⟨hsend, hall, rfl⟩ | ⟨t, hv⟩ := hc
    · exact .inl ⟨(sendings_snoc_of_nil hem).trans hsend, hall, rfl⟩
    · exact .inr ⟨t, hv.snoc hem (by simp [hnone])⟩
  · obtain ⟨m, ht, hl, rfl, -, hem⟩ | ⟨lease, ht, hactor, hem⟩ := hr.sent hnew
    · obtain ⟨m', hm, hs⟩ := hi.staged ht
      refine ⟨m', message?_snoc_of_some hm, .inl ⟨(sendings_snoc_of_nil hem).trans hs.2.1, ?_, rfl⟩⟩
      rw [← hi.orderly.outgoing_length]
      exact Table.lease?_eq_none_iff.1 hl
    · obtain ⟨m, hm, hs⟩ := hi.staged ht
      have hnone : acceptance? id ⟨e, move, events, e'⟩ = none :=
        Entity.acceptance?_self hactor ht (by rintro x ⟨⟩) id
      exact ⟨m, message?_snoc_of_some hm, .inr ⟨_, Verdict.snoc hs hem (by simp [hnone])⟩⟩

theorem Invariant.step (hi : Invariant config h e) (hs : e.step? move = some (e', events))
    (htime : punctual ⟨e, move, events, e'⟩ = true) :
    Invariant config (h ++ [⟨e, move, events, e'⟩]) e' := by
  have hr := Entity.rule_of_step? hs
  refine ⟨hi.orderly.step hr, hr.config_eq.trans hi.config_eq, hi.fresh_step hr,
    hi.staged_step hr htime, ?_, hi.concluded_step hr⟩
  intro id s result hret
  obtain hret | ⟨-, hret⟩ := returned_snoc.1 hret
  · obtain ⟨hn, hlt⟩ := hi.gone hret
    refine ⟨?_, Nat.lt_of_lt_of_le hlt hr.started_le⟩
    exact hr.absent_after hi.orderly hn hlt
  · obtain ⟨task, ht⟩ := hr.exists_task (hr.task_of_mem hret)
    exact ⟨hr.gone hret, Nat.lt_of_lt_of_le (hi.orderly.lt_started ht) hr.started_le⟩

theorem invariant_of_run (hrun : Run Entity.step? (.ofConfig config) h e)
    (htime : ∀ tr ∈ h, punctual tr = true) : Invariant config h e :=
  hrun.invariant htime (invariant_ofConfig config) Invariant.step

/-! ## The result -/

/-- Where there is no last word, nothing was answered and nothing refused. -/
theorem Trace.explained {now : Nat} {t : TransactionId} {payload : Octets} {start count : Nat}
    (ht : Trace config h id m t payload start count none)
    (hanswer : ∀ answer, outcome ≠ .ok (some answer))
    (hrefused : ∀ {cause t' reply}, outcome = .error (.control cause) →
      decisive h id = some (.data t' reply) → judgeAnswer m reply ≠ .error cause)
    (hnone : outcome = .ok none → m.isRequest = false)
    (hnetwork : outcome = .error (.control .networkFailure) →
      .error t.reverse .networkFailure ∈ acceptances h id ∨
        count = 1 + config.maxRetransmissions ∧ now = start + count * config.ackTime) :
    Explained config h now id m t payload start count none outcome where
  trace := ht
  last_eq := by rintro _ _ ⟨⟩
  ack_iff := iff_of_false (by rintro ⟨_, ⟨⟩⟩) fun ⟨answer, heq⟩ => hanswer answer heq
  error_iff := iff_of_false (by rintro ⟨_, ⟨⟩⟩) fun ⟨heq, _, _, hd, hj⟩ => hrefused heq hd hj
  answer heq := absurd heq (hanswer _)
  no_answer := hnone
  network := hnetwork

/-- Each way to come to an outcome shows in what was sent and in what has come in. -/
theorem Verdict.explained {now : Nat} {t : TransactionId} (hv : Verdict config h now id m t outcome) :
    (sendings h id = [] ∧ ∃ fault, m.encode = .error fault ∧ outcome = .error (.codec fault)) ∨
      ∃ t payload start count last,
        Explained config h now id m t payload start count last outcome := by
  cases hv with
  | unwritable hs he => exact .inl ⟨hs, _, he, rfl⟩
  | @answered payload start count time t' reply answer hm ht hd hj =>
    obtain ⟨hread, hkind, hdir, href⟩ := judgeAnswer_eq_ok hj
    have ht' : t' = t.reverse := ht.received _ (mem_of_decisive hd)
    subst ht'
    refine .inr ⟨t, payload, start, count, _, ht, ?_, ?_, ?_, ?_, by rintro ⟨⟩, by rintro ⟨⟩⟩
    · rintro _ _ ⟨⟩
      exact .inl rfl
    · exact ⟨fun _ => ⟨_, rfl⟩, fun _ => ⟨_, rfl⟩⟩
    · intro cause
      constructor
      · rintro ⟨_, ⟨⟩⟩
      · rintro ⟨⟨⟩, -⟩
    · rintro _ ⟨⟩
      exact ⟨hm, ⟨reply, mem_of_decisive hd, hread⟩, hkind, hdir, href⟩
  | @refused payload start count time t' reply cause hm ht hd hj =>
    refine .inr ⟨t, payload, start, count, _, ht, ?_, ?_, ?_, by rintro _ ⟨⟩, by rintro ⟨⟩, ?_⟩
    · rintro _ _ ⟨⟩
      exact .inr ⟨cause, rfl⟩
    · constructor
      · rintro ⟨_, ⟨⟩⟩
      · rintro ⟨_, ⟨⟩⟩
    · intro cause'
      constructor
      · rintro ⟨_, ⟨⟩⟩
        exact ⟨rfl, t', reply, hd, hj⟩
      · rintro ⟨⟨⟩, -⟩
        exact ⟨_, rfl⟩
    · rintro ⟨⟩
      exact absurd hj (judgeAnswer_ne_networkFailure _ _)
  | @ended payload start count t' cause ht hd =>
    have ht' : t' = t.reverse := ht.received _ (mem_of_decisive hd)
    subst ht'
    refine .inr ⟨t, payload, start, count, _,
      ht.explained (by rintro _ ⟨⟩) (fun _ hd' => ?_) (by rintro ⟨⟩) ?_⟩
    · rw [hd] at hd'
      cases hd'
    · rintro ⟨⟩
      exact .inl (mem_of_decisive hd)
  | @arrived payload start count hm ht =>
    exact .inr ⟨t, payload, start, count, _,
      ht.explained (by rintro _ ⟨⟩) (by rintro _ _ _ ⟨⟩) (fun _ => hm) (by rintro ⟨⟩)⟩
  | @gaveUp payload start ht hnow =>
    refine .inr ⟨t, payload, start, _, _,
      ht.explained (by rintro _ ⟨⟩) ?_ (by rintro ⟨⟩) fun _ => .inr ⟨rfl, hnow⟩⟩
    rintro _ _ _ ⟨⟩ -
    exact judgeAnswer_ne_networkFailure _ _
  | @unanswered payload start count hm ht =>
    exact .inr ⟨t, payload, start, count, _,
      ht.explained (by rintro _ ⟨⟩) (by rintro _ _ _ ⟨⟩) (by rintro ⟨⟩) (by rintro ⟨⟩)⟩

/-- Until the outcome is known there is no last word. -/
theorem Stage.undecided (hs : Stage config h e id m phase) (hphase : phase.outcome? = none) :
    sendings h id = [] ∨
      ∃ t payload start count, Trace config h id m t payload start count none := by
  cases phase with
  | opening m' => exact .inl hs.2.1
  | delivering s handover =>
    cases handover with
    | transmitting repeated =>
      obtain ⟨payload, start, hu, -⟩ := hs
      exact .inr ⟨_, payload, start, _, hu.trace⟩
    | awaiting repeated deadline =>
      obtain ⟨payload, start, hu, -⟩ := hs
      exact .inr ⟨_, payload, start, _, hu.trace⟩
  | awaitingAnswer s deadline =>
    obtain ⟨-, payload, start, count, hu⟩ := hs
    exact .inr ⟨_, payload, start, count, hu.trace⟩
  | expired s =>
    obtain ⟨-, payload, start, count, hu⟩ := hs
    exact .inr ⟨_, payload, start, count, hu.trace⟩
  | concluding lease outcome => cases hphase
  | closing lease outcome => cases hphase

/-- Whatever messages, acknowledgements, errors and timers come in whatever order, a message to send
is seen as the permitted copies and last word, and comes to what these stand for. -/
theorem trace_of_run (hrun : Run Entity.step? (.ofConfig config) h e)
    (htime : ∀ tr ∈ h, punctual tr = true) : Complete config h e := by
  have hi := invariant_of_run hrun htime
  refine ⟨fun ht hphase => ?_, fun {id phase outcome} ht hphase => ?_, fun hret => ?_,
    fun {id m} ht hfull => ?_⟩
  · obtain ⟨m, hm, hs⟩ := hi.staged ht
    exact ⟨m, hm, hs.undecided hphase⟩
  · obtain ⟨m, hm, hs⟩ := hi.staged ht
    refine ⟨m, hm, ?_⟩
    cases phase with
    | concluding lease outcome => cases hphase; exact Verdict.explained hs
    | closing lease outcome => cases hphase; exact Verdict.explained hs
    | _ => cases hphase
  · obtain ⟨m, hm, hc⟩ := hi.concluded hret
    refine ⟨m, hm, ?_⟩
    obtain ⟨hsend, hall, rfl⟩ | ⟨t, hv⟩ := hc
    · exact .inl ⟨hsend, hall, rfl⟩
    · exact .inr hv.explained
  · have hl : e.outgoing.lease? () = none := by
      rw [Table.lease?_eq_none_iff, hi.orderly.outgoing_length]
      exact hfull
    simp [Entity.run, ht, Entity.runSending, Entity.openSession, hl, Entity.finish]

/-- A request is repeated once, and then answered. -/
def repeatedOnce : List (Move Input) :=
  [.start (.send (.memoryAvailable 7)), .run 0, .sent 0 (.ok ()), .elapse 20000, .expire 0,
    .sent 0 (.ok ()), .start (.receive (.data ⟨true, 0⟩ [3, 7])), .run 1, .run 0, .sent 0 (.ok ()),
    .run 0]

theorem trace_repeatedOnce :
    ∃ h e, replay Entity.step? (.ofConfig {}) repeatedOnce = some (h, e) ∧
      (∀ tr ∈ h, punctual tr = true) ∧ Complete {} h e ∧
      sendings h 0 = copies (.data ⟨false, 0⟩ [6, 7]) 0 20000 2 ++ [(20000, .ack ⟨false, 0⟩)] := by
  obtain ⟨⟨h, e⟩, hr⟩ : ∃ r, replay Entity.step? (.ofConfig {}) repeatedOnce = some r :=
    Option.isSome_iff_exists.1 (by decide +kernel)
  have hall : ((replay Entity.step? (.ofConfig {}) repeatedOnce).map fun r =>
      r.1.all punctual && sendings r.1 0 ==
        copies (.data ⟨false, 0⟩ [6, 7]) 0 20000 2 ++ [(20000, .ack ⟨false, 0⟩)]) = some true := by
    decide +kernel
  simp only [hr, Option.map_some, Option.some.injEq, Bool.and_eq_true, List.all_eq_true,
    beq_iff_eq] at hall
  exact ⟨h, e, hr, hall.1, trace_of_run (run_of_replay hr) hall.1, hall.2⟩

end

end ShortMessage.Control
