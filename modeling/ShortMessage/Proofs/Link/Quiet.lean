import ShortMessage.Proofs.Link.Agreement

/-!
# When nothing more can happen

In a `Quiet` state nothing is on the way and no task can take a step.  Every request has been
returned then, except for those that were taken for a repetition (`settled_of_quiet`), and these wait
for ever.  A request is taken for a repetition when it meets the task that has served an earlier
request on its transaction and has only to notice that it is done; it takes no more than nine
requests to get there (`lost_exchange`).
-/

namespace ShortMessage.Link

open Control Transaction
open Control.Entity (outgoingLease? incomingLease? receiveMessage_ne_none openService_ne_none
  openSession_ne_none takeAnswer_ne_none acknowledge_ne_none reply_ne_none accepted_ne_none)

/-! ## Quiet states -/

/-- Nothing is on the way, and no task can take a step, whatever the applications say. -/
structure Quiet (l : State) : Prop where
  delivered : ∀ p, (l p).inbound = []
  resting : ∀ p move, actor? move ≠ none → step? l (p, move) = none

section

variable {h : List Passage} {l l' : State} {p q : Party} {move : Move Input}
  {events : List (Event Control.Message Result)} {cause : Option TaskId} {inbound : List Parcel}
  {i j : TaskId} {n : Nat} {task : Task}

/-- In a quiet state no task has a step left that it may take. -/
theorem Quiet.step?_eq_none (hq : Quiet l) (p : Party) (move : Move Input)
    (hactor : actor? move ≠ none) (hadmits : (l p).admits? move ≠ none) :
    (l p).entity.step? move = none := by
  have hnone := hq.resting p move hactor
  unfold step? at hnone
  split at hnone
  · rename_i hadmits'
    exact absurd hadmits' hadmits
  · split at hnone
    · assumption
    · cases hnone

theorem Quiet.run (hq : Quiet l) : (l p).entity.run i = none :=
  hq.step?_eq_none p (.run i) (by rintro ⟨⟩) (by rintro ⟨⟩)

theorem Quiet.sent (hq : Quiet l) : (l p).entity.sent i (.ok ()) = none :=
  hq.step?_eq_none p (.sent i (.ok ())) (by rintro ⟨⟩) (by rintro ⟨⟩)

theorem Quiet.answered (hq : Quiet l) (outcome : Service.Outcome) (now : Timestamp) :
    (l p).entity.answered i outcome now = none :=
  hq.step?_eq_none p (.answered i outcome now) (by rintro ⟨⟩) (by rintro ⟨⟩)

/-! ## What is left in a quiet state -/

/-- A task that looks at a message can always run. -/
theorem Quiet.not_looking (hq : Quiet l) (ht : (l p).entity.task? i = some task) :
    looking task = false := by
  have hrun := hq.run (p := p) (i := i)
  unfold Entity.run at hrun
  rw [ht] at hrun
  cases task with
  | receiving r =>
    cases r with
    | arrived m => exact absurd hrun (receiveMessage_ne_none _ m)
    | opening t r => exact absurd hrun (openService_ne_none _ t r)
    | _ => rfl
  | _ => rfl

/-- In a quiet state every message has been looked at. -/
theorem Quiet.queue_eq_nil (hq : Quiet l) (p : Party) : (l p).queue = [] := by
  have hhead : (l p).head? = none := by
    unfold Side.head?
    cases (l p).latest with
    | none => rfl
    | some id => exact Side.item?_eq_none fun task ht => hq.not_looking ht
  rw [Side.queue, hhead, hq.delivered p]
  rfl

theorem Quiet.lane_eq_nil (hq : Quiet l) (p : Party) (t : TransactionId) : (l p).lane t = [] := by
  unfold Side.lane
  rw [hq.queue_eq_nil]
  rfl

theorem Quiet.down_eq_nil (hq : Quiet l) (p : Party) (n : Nat) : (l p).down n = [] := by
  unfold Side.down
  rw [hq.lane_eq_nil]
  rfl

/-- A request that is open in a quiet state waits for its answer. -/
theorem Quiet.heard (hq : Quiet l) {mem : Memory} {sess : Session} {heard : List Control.Message}
    (ho : Open mem (l p) n i sess heard) : heard = [] ∨ ∃ m deadline, heard = [m] ∧
      (l p).entity.task? i = some (.sending (.awaitingAnswer sess deadline)) := by
  obtain ⟨phase, mail, ⟨ht, lease, hlease, -, hmail⟩, hlistening⟩ := ho.client
  rw [hq.down_eq_nil, List.append_nil] at hlistening
  rw [Entity.leaseOut?_eq ht] at hlease
  have hrun := hq.run (p := p) (i := i)
  have hsent := hq.sent (p := p) (i := i)
  unfold Entity.run at hrun
  unfold Entity.sent at hsent
  rw [ht] at hrun hsent
  cases hlistening with
  | @delivering handover =>
    cases hlease
    cases handover with
    | transmitting repeated => cases hsent
    | awaiting repeated deadline =>
      simp only [Entity.runSending] at hrun
      split at hrun
      · exact absurd hrun (acknowledge_ne_none _ _ _)
      · rename_i htake
        exact .inl (hmail.symm.trans (Table.take?_eq_none_iff.1 htake))
  | @awaiting deadline m rest hheard =>
    cases hlease
    simp only [Entity.runSending] at hrun
    split at hrun
    · exact absurd hrun (takeAnswer_ne_none _ _ _)
    · rename_i htake
      rw [Table.take?_eq_none_iff.1 htake] at hmail
      exact .inr ⟨m, deadline, hmail ▸ hheard, ht⟩

/-- A request that has come to an outcome can return it, so none of a quiet state has. -/
theorem Quiet.undecided (hq : Quiet l) {phase : Sending} {outcome : Outcome}
    (ht : (l p).entity.task? i = some (.sending phase)) : phase.outcome? ≠ some outcome := by
  have hrun := hq.run (p := p) (i := i)
  have hsent := hq.sent (p := p) (i := i)
  unfold Entity.run at hrun
  unfold Entity.sent at hsent
  rw [ht] at hrun hsent
  cases phase with
  | concluding => cases hsent
  | closing => cases hrun
  | _ => rintro ⟨⟩

theorem Quiet.not_opening (hq : Quiet l) {m : Relay.Message} :
    (l p).entity.task? i ≠ some (.sending (.opening m)) := by
  intro ht
  have hrun := hq.run (p := p) (i := i)
  unfold Entity.run at hrun
  rw [ht] at hrun
  exact openSession_ne_none _ m hrun

section

variable {service : Control.Service}

theorem Quiet.not_accepting (hq : Quiet l) :
    (l p).entity.task? i ≠ some (.receiving (.accepting service)) := by
  intro ht
  have hsent := hq.sent (p := p) (i := i)
  unfold Entity.sent at hsent
  rw [ht] at hsent
  cases hsent

theorem Quiet.not_accepted (hq : Quiet l) :
    (l p).entity.task? i ≠ some (.serving (.accepted service)) := by
  intro ht
  have hrun := hq.run (p := p) (i := i)
  unfold Entity.run at hrun
  rw [ht] at hrun
  exact accepted_ne_none _ service hrun

theorem Quiet.not_handling (hq : Quiet l) :
    (l p).entity.task? i ≠ some (.serving (.handling service)) := by
  intro ht
  have hanswered := hq.answered (p := p) (i := i) (.ok none) midnight
  unfold Entity.answered at hanswered
  rw [ht] at hanswered
  exact reply_ne_none _ service _ _ hanswered

end

/-- A request that still has a transaction in a quiet state was taken for a repetition. -/
theorem Quiet.waiting (hq : Quiet l) (hl : Lines h l) (hn : n < transactionCount) {phase : Sending}
    {mail : List Control.Message} (hc : Client (l p).entity n i phase mail) :
    ∃ sess deadline j, phase = .awaitingAnswer sess deadline ∧ story h p i = [.passedOver j] := by
  have hopen {i' : TaskId} {sess : Session} {heard : List Control.Message}
      (ho : Open (memory h p) (l p) n i' sess heard) : i' = i ∧ (heard = [] ∨
        ∃ m deadline, heard = [m] ∧ phase = .awaitingAnswer sess deadline) := by
    obtain ⟨rfl, -⟩ := ho.of_client (hl.steady p) hc
    refine ⟨rfl, (hq.heard ho).imp_right ?_⟩
    rintro ⟨m, deadline, hheard, ht⟩
    rw [hc.1] at ht
    cases ht
    exact ⟨m, deadline, hheard, rfl⟩
  cases hl.stage p n hn with
  | trailing ht hlane htr =>
    rw [hq.lane_eq_nil] at hlane
    cases htr with
    | idle hv => exact absurd hv hc.2.not_vacant
    | requested => exact absurd hlane (by simp)
    | refused ho =>
      obtain ⟨-, h | ⟨_, _, h, -⟩⟩ := hopen ho <;> cases h
    | passedOver ho hstory =>
      obtain ⟨rfl, h | ⟨_, deadline, h, hphase⟩⟩ := hopen ho
      · cases h
      · exact ⟨_, deadline, _, hphase, hstory⟩
    | ended hended hout =>
      obtain ⟨-, rfl, -⟩ := (hl.steady p).client_eq hc hended
      exact absurd hout (hq.undecided hc.1)
  | live hlive =>
    cases hlive with
    | looked _ _ _ hlane =>
      rw [hq.lane_eq_nil] at hlane
      cases hlane
    | accepting _ _ hb => exact absurd hb.1 hq.not_accepting
    | accepted _ _ hb => exact absurd hb.1 hq.not_accepted
    | handling _ _ hb => exact absurd hb.1 hq.not_handling
    | replied ho =>
      obtain ⟨-, h | ⟨_, _, h, -⟩⟩ := hopen ho <;> cases h

end

/-! ## Requests that were handed in -/

section

variable {h : List Passage} {l l' : State} {p q : Party} {move : Move Input}
  {events : List (Event Control.Message Result)} {cause : Option TaskId} {inbound : List Parcel}
  {i j : TaskId} {n : Nat} {m : Relay.Message}

/-- A request is on its way to an outcome, or has been returned. -/
def Alive (h : List Passage) (l : State) (p : Party) (i : TaskId) : Prop :=
  (∃ phase, (l p).entity.task? i = some (.sending phase)) ∨
    ∃ s outcome, Returned (steps h p) i s (.sent outcome)

theorem Moved.alive_of_task (hm : Moved l l' p move events cause inbound)
    (ho : (l p).entity.Orderly) {phase : Sending}
    (ht : (l p).entity.task? i = some (.sending phase)) :
    Alive (h ++ [⟨l, (p, move), events, l'⟩]) l' p i := by
  have hrule := hm.rule
  by_cases hactor : actor? move = some i
  · generalize he : (l' p).entity = e at hrule
    cases hrule with
    | start input | elapsed duration => cases hactor
    | handedOver ht' =>
      cases hactor
      rw [ht] at ht'
      cases ht'
    | act ht' ha =>
      rw [ha.actor] at hactor
      cases hactor
      rw [ht] at ht'
      cases ht'
      have hmove : move ≠ .abort i := by
        rintro rfl
        cases hm.calm
      obtain ⟨phase', rfl⟩ | ⟨outcome, hret⟩ := ha.goes_on hmove
      · exact .inl ⟨phase', by rw [he, Entity.task?_settle _ _ _ ht, if_pos rfl]⟩
      · refine .inr ⟨(l p).entity, outcome, ?_⟩
        rw [steps_mover]
        exact returned_snoc.2 (.inr ⟨rfl, hret⟩)
  · exact .inl ⟨phase, (hrule.task?_of_ne ho hactor (ho.lt_started ht)).trans ht⟩

/-- Whatever either party does, a request that is on its way goes on, or is returned. -/
theorem Moved.alive (hm : Moved l l' p move events cause inbound)
    (ho : (l p).entity.Orderly) (halive : Alive h l q i) :
    Alive (h ++ [⟨l, (p, move), events, l'⟩]) l' q i := by
  rcases Party.eq_or p q with rfl | rfl
  · obtain ⟨phase, ht⟩ | ⟨s, outcome, hret⟩ := halive
    · exact hm.alive_of_task ho ht
    · refine .inr ⟨s, outcome, ?_⟩
      rw [steps_mover]
      exact returned_snoc.2 (.inl hret)
  · unfold Alive
    rw [hm.entity_peer, steps_peer]
    exact halive

/-- A request that is known after a step was known before, or is handed in. -/
theorem Moved.asked_cases (hl : Lines h l) (hm : Moved l l' p move events cause inbound)
    (hasked : message? (steps (h ++ [⟨l, (p, move), events, l'⟩]) q) i = some m) :
    message? (steps h q) i = some m ∨
      ∃ phase, (l' q).entity.task? i = some (.sending phase) := by
  rcases Party.eq_or p q with rfl | rfl
  · rw [steps_mover] at hasked
    unfold message? at hasked ⊢
    rcases hm.rule.input?_eq (steps h q) i with ⟨input, rfl, rfl, -⟩ | heq
    · obtain ⟨input', hinput, hm'⟩ := Option.bind_eq_some_iff.1 hasked
      rw [input?_snoc_of_start (hl.fresh (Nat.le_refl _)).1 rfl rfl] at hinput
      cases hinput
      cases input with
      | send m' =>
        have hrule := hm.rule
        generalize he : (l' q).entity = e at hrule
        cases hrule with
        | start =>
          refine .inr ⟨.opening m', ?_⟩
          rw [(hl.steady q).orderly.task?_spawn, if_pos rfl]
          rfl
        | act _ ha => cases ha.actor
      | _ => cases hm'
    · rw [heq] at hasked
      exact .inl hasked
  · rw [steps_peer] at hasked
    exact .inl hasked

/-- No task of a request ends without having returned an outcome. -/
theorem alive_of_run {config : Party → Config} (hrun : Run step? (ofConfigs config) h l)
    (hasked : message? (steps h p) i = some m) : Alive h l p i := by
  induction hrun with
  | rest => cases hasked
  | step hrun hs ih =>
    obtain ⟨_, _, hm⟩ := step?_eq_moved hs
    have hl := lines_of_run hrun
    obtain hold | hnew := hm.asked_cases hl hasked
    · exact hm.alive (hl.steady _).orderly (ih hold)
    · exact .inl hnew

/-! ## Requests that are lost -/

/-- A request on its way from `c` to the task `j` of `s` finds its transaction held by a task that has
served an earlier one and has nothing more to say. -/
def Overtakes (c s : Side) (i j : TaskId) : Prop :=
  s.origin j = some i ∧ ∃ t payload phase mail k task box,
    s.entity.task? j = some (.receiving (.arrived (.data t payload))) ∧ t.flag = false ∧
      Client c.entity t.value.toNat i phase mail ∧ Server s.entity t.value.toNat k task box ∧
      leaving task box = true

/-- A request that is passed over has overtaken the end of an earlier exchange. -/
theorem Moved.overtakes (hl : Lines h l) (hm : Moved l l' p move events cause inbound)
    (he : entryIn? p.peer i ⟨l, (p, move), events, l'⟩ = some (.passedOver j)) :
    move = .run j ∧ Overtakes (l p.peer) (l p) i j := by
  obtain ⟨_, -, horigin, hcases⟩ := hm.entry_cases he
  rcases hcases with ⟨_, _, -, -, -, heq⟩ | ⟨_, _, _, -, -, heq⟩ |
    ⟨t, payload, ht, hflag, hheld, rfl, heq⟩
  · cases heq
  · cases heq
  · cases heq
    obtain ⟨i', sess, horigin', -, -, -, -, htail, ho, -⟩ := hl.data_arrived ht hflag
    rw [horigin'] at horigin
    cases horigin
    obtain ⟨phase, mail, hc, -⟩ := ho.client
    have hserver : ∃ k task box, Server (l p).entity t.value.toNat k task box ∧
        leaving task box = true := by
      cases htail with
      | gone hv =>
        rw [(hl.steady p).incoming.vacant_iff, ← Table.isHeld_eq_false_iff, hheld] at hv
        cases hv
      | acknowledged hb | refusing hb | closing hb => exact ⟨_, _, _, hb, rfl⟩
    obtain ⟨k, task, box, hb, hleaving⟩ := hserver
    exact ⟨rfl, horigin', t, payload, phase, mail, k, task, box, ht, hflag, hc, hb, hleaving⟩

/-- A request that overtakes the end of an earlier exchange is passed over. -/
theorem Moved.passedOver (hl : Lines h l) (hm : Moved l l' p (.run j) events cause inbound)
    (ho : Overtakes (l p.peer) (l p) i j) :
    entryIn? p.peer i ⟨l, (p, .run j), events, l'⟩ = some (.passedOver j) := by
  obtain ⟨horigin, t, payload, _, _, _, _, _, ht, hflag, -, hb, -⟩ := ho
  have hheld : (l p).entity.incoming.isHeld t.value.toNat = true := by
    cases hheld : (l p).entity.incoming.isHeld t.value.toNat with
    | true => rfl
    | false => exact absurd ((hl.steady p).incoming.vacant_of_isHeld hheld) hb.not_vacant
  rw [entryIn?_mover]
  refine (if_pos horigin).trans ?_
  have hrule := hm.rule
  generalize (l' p).entity = e at hrule
  cases hrule with
  | act ht' ha =>
    cases ha.actor
    rw [ht] at ht'
    cases ht'
    cases ha <;> simp_all [happening]

theorem Moved.passedOver_iff (hl : Lines h l) (hm : Moved l l' p move events cause inbound) :
    entryIn? q i ⟨l, (p, move), events, l'⟩ = some (.passedOver j) ↔
      (p, move) = (q.peer, .run j) ∧ Overtakes (l q) (l q.peer) i j := by
  rcases Party.eq_or p q with rfl | rfl
  · rw [entryIn?, if_neg (Party.peer_ne q).symm]
    refine iff_of_false (by rintro ⟨⟩) ?_
    rintro ⟨heq, -⟩
    exact Party.peer_ne q (congrArg Prod.fst heq).symm
  · rw [Party.peer_peer]
    constructor
    · intro he
      obtain ⟨rfl, ho⟩ := hm.overtakes hl he
      exact ⟨rfl, ho⟩
    · rintro ⟨heq, ho⟩
      cases heq
      exact hm.passedOver hl ho

/-- The exact condition, at any step of any run, for a request to be passed over. -/
theorem overtakes_of_run {config : Party → Config} (hrun : Run step? (ofConfigs config) h l)
    {tr : Passage} (htr : tr ∈ h) : entryIn? p i tr = some (.passedOver j) ↔
      tr.move = (p.peer, .run j) ∧ Overtakes (tr.before p) (tr.before p.peer) i j := by
  induction hrun with
  | rest => cases htr
  | step hrun hs ih =>
    rcases List.mem_append.1 htr with htr | htr
    · exact ih htr
    · obtain rfl := List.mem_singleton.1 htr
      obtain ⟨_, _, hm⟩ := step?_eq_moved hs
      exact hm.passedOver_iff (lines_of_run hrun)

/-- What has become of all requests when nothing more can happen. -/
structure Settled (h : List Passage) (l : State) : Prop where
  /-- A request was returned, and the application was asked for it once unless nothing of it was ever
  emitted; or it was taken for a repetition, and waits for ever. -/
  sent : ∀ {p i m}, message? (steps h p) i = some m →
    ((∃ s outcome, Returned (steps h p) i s (.sent outcome) ∧
        Verdict m (story h p i) (emissions (steps h p) i) outcome) ∧
      ∀ j, .passedOver j ∉ story h p i) ∨
    ∃ sess deadline j, (l p).entity.task? i = some (.sending (.awaitingAnswer sess deadline)) ∧
      story h p i = [.passedOver j]
  /-- A request is taken for a repetition exactly when the task that has served an earlier one has not
  noticed yet that it is done. -/
  late : ∀ {p tr i j}, tr ∈ h → (entryIn? p i tr = some (.passedOver j) ↔
    tr.move = (p.peer, .run j) ∧ Overtakes (tr.before p) (tr.before p.peer) i j)

theorem Verdict.not_passedOver {story : List Entry} {emitted : List Control.Message}
    {outcome : Outcome} (hv : Verdict m story emitted outcome) (j : TaskId) :
    .passedOver j ∉ story := by
  cases hv with
  | congested hstory | unwritable _ hstory => simp [hstory]
  | decided hd =>
    cases hd with
    | answered hh | refused hh =>
      obtain ⟨-, _, _, -, hstory⟩ := hh
      simp [hstory]

/-- When nothing more can happen, every request was returned except for those that were taken for a
repetition. -/
theorem settled_of_quiet {config : Party → Config} (hrun : Run step? (ofConfigs config) h l)
    (hquiet : Quiet l) : Settled h l where
  late htr := overtakes_of_run hrun htr
  sent {p i m} hasked := by
    have hl := lines_of_run hrun
    obtain ⟨phase, ht⟩ | ⟨s, outcome, hret⟩ := alive_of_run hrun hasked
    · have hlease : outgoingLease? (.sending phase) ≠ none := by
        cases phase with
        | opening m' => exact absurd ht hquiet.not_opening
        | _ => rintro ⟨⟩
      obtain ⟨lease, hlease⟩ := Option.ne_none_iff_exists'.1 hlease
      obtain ⟨hn, hc⟩ := (hl.steady p).client_of_lease ht hlease
      obtain ⟨sess, deadline, j, rfl, hstory⟩ := hquiet.waiting hl hn hc
      exact .inr ⟨sess, deadline, j, ht, hstory⟩
    · obtain ⟨m', hasked', -, hverdict⟩ := (account_of_run hrun).agreed.returned hret
      rw [hasked] at hasked'
      cases hasked'
      exact .inl ⟨⟨s, outcome, hret, hverdict⟩, hverdict.not_passedOver⟩

end

/-! ## A request that is lost -/

/-- Is nothing on the way to a party, and can none of its tasks take a step? -/
def still (s : Side) : Bool :=
  s.inbound.isEmpty && s.entity.tasks.all fun t =>
    (s.entity.run t.1).isNone && (s.entity.sent t.1 (.ok ())).isNone &&
      match t.2 with
      | .serving (.handling _) => false
      | _ => true

/-- Whether a state is quiet can be computed. -/
theorem quiet_of_still {l : State} (hl : ∀ p, still (l p) = true) : Quiet l where
  delivered p := by
    have := hl p
    simp only [still, Bool.and_eq_true, List.isEmpty_iff] at this
    exact this.1
  resting p move hactor := by
    obtain ⟨-, htasks⟩ := Bool.and_eq_true_iff.1 (hl p)
    cases hs : step? l (p, move) with
    | none => rfl
    | some result =>
      obtain ⟨cause, inbound, hm⟩ := step?_eq_moved hs
      obtain ⟨id, hid⟩ := Option.ne_none_iff_exists'.1 hactor
      obtain ⟨task, ht⟩ := hm.rule.exists_task hid
      have hstill := List.all_eq_true.1 htasks _ (mem_of_lookup ht)
      simp only [Bool.and_eq_true, Option.isNone_iff_eq_none] at hstill
      obtain ⟨⟨hrun, hsent⟩, hhandling⟩ := hstill
      have hadmits := hm.admits
      unfold step? at hs
      rw [hadmits] at hs
      cases move with
      | run =>
        cases hid
        simp only [Entity.step?, hrun] at hs
        cases hs
      | sent _ result =>
        cases hid
        cases result with
        | error => cases hadmits
        | ok =>
          simp only [Entity.step?, hsent] at hs
          cases hs
      | answered =>
        cases hid
        simp only [Entity.step?, Entity.answered, ht] at hs
        split at hs
        · cases hs
        · rename_i hanswered
          split at hanswered
          · rename_i heq
            cases heq
            cases hhandling
          · cases hanswered
      | expire | abort => cases hadmits
      | start | elapse => cases hid

/-- The end of an exchange: the task that served notices that its answer was acknowledged. -/
def ending (n : Nat) : List Deed := [(.second, .run (3 * n + 1)), (.second, .run (3 * n + 1))]

theorem settled_exchange : ∃ h l,
    replay step? (ofConfigs fun _ => {}) (exchange midnight 0 ++ ending 0) = some (h, l) ∧
      Quiet l ∧ Settled h l ∧ message? (steps h .first) 0 = some (.memoryAvailable 0) ∧
      story h .first 0 = [.called 1 .memoryAvailable, .decided 1 (.ok none) midnight] := by
  obtain ⟨⟨h, l⟩, hr⟩ :
      ∃ r, replay step? (ofConfigs fun _ => {}) (exchange midnight 0 ++ ending 0) = some r :=
    Option.isSome_iff_exists.1 (by decide +kernel)
  have hall : ((replay step? (ofConfigs fun _ => {}) (exchange midnight 0 ++ ending 0)).map fun r =>
      still (r.2 .first) && still (r.2 .second) &&
        message? (steps r.1 .first) 0 == some (.memoryAvailable 0) &&
        story r.1 .first 0 == [.called 1 .memoryAvailable, .decided 1 (.ok none) midnight]) =
          some true := by
    decide +kernel
  simp only [hr, Option.map_some, Option.some.injEq, Bool.and_eq_true, beq_iff_eq] at hall
  have hquiet : Quiet l := quiet_of_still fun p => by cases p <;> simp only [hall]
  exact ⟨h, l, hr, hquiet, settled_of_quiet (run_of_replay hr) hquiet, hall.1.2, hall.2⟩

/-- Eight notices are answered on one transaction after the other, and the ninth comes in on the first
transaction before the task that served the first notice has noticed that it is done. -/
def lost : List Deed :=
  exchange midnight 0 ++ (List.range 7).flatMap (fun n => exchange midnight (n + 1) ++ ending (n + 1)) ++
    [(.first, .start (.send (.memoryAvailable 8))), (.first, .run 24), (.first, .sent 24 (.ok ())),
      (.second, .start (.receive (.data (own 0) [6, 8]))), (.second, .run 24),
      (.second, .sent 24 (.ok ())), (.first, .start (.receive (.ack (other 0)))), (.first, .run 25),
      (.first, .run 24)] ++ ending 0

theorem lost_exchange : ∃ h l,
    replay step? (ofConfigs fun _ => {}) lost = some (h, l) ∧ Quiet l ∧
      message? (steps h .first) 24 = some (.memoryAvailable 8) ∧
      story h .first 24 = [.passedOver 24] ∧ ((l .first).entity.task? 24).isSome := by
  obtain ⟨⟨h, l⟩, hr⟩ : ∃ r, replay step? (ofConfigs fun _ => {}) lost = some r :=
    Option.isSome_iff_exists.1 (by decide +kernel)
  have hall : ((replay step? (ofConfigs fun _ => {}) lost).map fun r =>
      still (r.2 .first) && still (r.2 .second) &&
        message? (steps r.1 .first) 24 == some (.memoryAvailable 8) &&
        story r.1 .first 24 == [.passedOver 24] && ((r.2 .first).entity.task? 24).isSome) =
          some true := by
    decide +kernel
  simp only [hr, Option.map_some, Option.some.injEq, Bool.and_eq_true, beq_iff_eq] at hall
  have hquiet : Quiet l := quiet_of_still fun p => by cases p <;> simp only [hall]
  exact ⟨h, l, hr, hquiet, hall.1.1.2, hall.1.2, hall.2⟩

end ShortMessage.Link
