import ShortMessage.Proofs.Relay.Tracking

/-!
# Requests and their answers

A relay entity runs many requests at a time, and answers come in any order, early, twice, the wrong
way or at the moment at which the entity stops waiting.  `Correlated` says that none of this mixes
requests up:

* requests that are out have different references, and each was sent once, under its own;
* a request returns what became of it alone (`Verdict`): what the failure of the transport is
  reported as, what the first answer says that an indication accepted for its reference, or the
  cause 47 when none was accepted in time;
* the time to wait ends exactly `answerTime` after the transport was done, and until then nothing
  but the request's own steps stands between it and its return.

`correlated_of_run` proves it of every run in which time passes on a virtual clock (`onTime`).
-/

namespace ShortMessage.Relay

open Transaction
open Entity (leaseOf?)

/-- Requests and answers are not mixed up in a history that leads to `e`. -/
structure Correlated (config : Config) (h : List Step) (e : Entity) : Prop where
  /-- An outstanding request has its reference, and was sent under it, once. -/
  outstanding : ∀ {id r reference}, e.Outstanding id r reference →
    e.holds id reference = true ∧
      ∃ sent, Carries config.centre reference r sent ∧ emissions h id = [sent]
  /-- No reference has two owners, and no request two references. -/
  distinct : ∀ {i j reference}, e.holds i reference = true → e.holds j reference = true → i = j
  single : ∀ {id reference reference'}, e.holds id reference = true →
    e.holds id reference' = true → reference = reference'
  /-- A request is sent at most once, and what is accepted for it fits it. -/
  recorded : ∀ {id r}, request? h id = some r → Recorded config h id r
  /-- A request returns what it came to. -/
  returned : ∀ {id s outcome}, Returned h id s (.requested outcome) →
    ∃ r, request? h id = some r ∧ Conclusion config h s id r outcome
  /-- An answer that an indication accepts is accepted for one request and no other. -/
  given : ∀ {tr k m}, tr ∈ h → tr.move = .run k →
    tr.before.task? k = some (.indicating m .arrived) →
    .returned k (.indicated (.ok ())) ∈ tr.events →
    ∃ id, acceptance? id tr = some m ∧ ∀ j, (acceptance? j tr).isSome → j = id
  /-- A request that has no reference yet can take a step. -/
  opens : ∀ {id r}, e.task? id = some (.requesting r .opening) → (e.run id).isSome
  /-- A request whose message is with the transport goes on with whatever the transport says. -/
  completes : ∀ {id r lease}, e.task? id = some (.requesting r (.transmitting lease)) →
    ∀ result, (e.sent id result).isSome
  /-- A request that was sent never waits for too long. -/
  prompt : ∀ {id r phase sent}, e.task? id = some (.requesting r phase) →
    completions h id = [(sent, .ok ())] → acceptances h id = [] →
    e.clock ≤ sent + config.answerTime
  /-- A request that has come to something can return it at once. -/
  returns : ∀ {id r phase outcome}, e.task? id = some (.requesting r phase) →
    Verdict h config.answerTime id r e.clock outcome → Returns e id outcome

section

variable {config : Config} {h : List Step} {e e' : Entity} {id : TaskId} {r : Request}
  {phase : Requesting} {move : Move Input} {events : List (Event Message Result)}

/-! ## The invariant -/

/-- What holds along every run. -/
structure Invariant (config : Config) (h : List Step) (e : Entity) : Prop where
  orderly : e.Orderly
  config_eq : e.config = config
  fresh : ∀ {id}, e.started ≤ id → input? Entity.started h id = none ∧ emissions h id = [] ∧
    completions h id = [] ∧ acceptances h id = []
  tracked : ∀ {id r phase}, e.task? id = some (.requesting r phase) →
    Tracked config h e id r phase
  indicated : ∀ {id m phase}, e.task? id = some (.indicating m phase) → request? h id = none
  recorded : ∀ {id r}, request? h id = some r → Recorded config h id r
  gone : ∀ {id s result}, Returned h id s result → e.task? id = none ∧ id < e.started
  concluded : ∀ {id s outcome}, Returned h id s (.requested outcome) →
    ∃ r, request? h id = some r ∧ Conclusion config h s id r outcome
  given : ∀ {tr k m}, tr ∈ h → tr.move = .run k →
    tr.before.task? k = some (.indicating m .arrived) →
    .returned k (.indicated (.ok ())) ∈ tr.events →
    ∃ id, acceptance? id tr = some m ∧ ∀ j, (acceptance? j tr).isSome → j = id

theorem invariant_ofConfig (config : Config) : Invariant config [] (.ofConfig config) where
  orderly := Entity.orderly_ofConfig config
  config_eq := rfl
  fresh _ := ⟨rfl, rfl, rfl, rfl⟩
  tracked h := by cases h
  indicated h := by cases h
  recorded h := by cases h
  gone := by rintro id s result ⟨tr, htr, -⟩; cases htr
  concluded := by rintro id s outcome ⟨tr, htr, -⟩; cases htr
  given htr := by cases htr

/-- A task that is not started yet has no history. -/
theorem Invariant.fresh_step (hi : Invariant config h e) (hr : Entity.Rule e move e' events)
    (hid : e'.started ≤ id) :
      input? Entity.started (h ++ [⟨e, move, events, e'⟩]) id = none ∧
      emissions (h ++ [⟨e, move, events, e'⟩]) id = [] ∧
      completions (h ++ [⟨e, move, events, e'⟩]) id = [] ∧
      acceptances (h ++ [⟨e, move, events, e'⟩]) id = [] := by
  have hid' : e.started ≤ id := Nat.le_trans hr.started_le hid
  obtain ⟨hrq, hem, hcomp, hacc⟩ := hi.fresh hid'
  obtain ⟨hactor, hnone⟩ := hr.absent (hi.orderly.fresh hid')
  obtain ⟨hem', hcomp', -⟩ := hr.silent hactor
  refine ⟨?_, ?_, ?_, ?_⟩
  · obtain ⟨input, -, -, hlt⟩ | hsame := hr.input?_eq h id
    · exact absurd hid (Nat.not_le.2 (hlt ▸ Nat.lt_succ_self id))
    · exact hsame.trans hrq
  · rw [emissions_snoc, hem, hem']
    rfl
  · rw [completions_snoc, hcomp, hcomp']
    rfl
  · rw [acceptances_snoc, hacc, hnone]
    rfl

/-- A new request has no history yet. -/
theorem Invariant.tracked_start (hi : Invariant config h e) :
    Tracked config (h ++ [⟨e, .start (.request r), [], e'⟩]) e' e.started r .opening := by
  obtain ⟨hrq, hem, hcomp, hacc⟩ := hi.fresh (Nat.le_refl e.started)
  refine ⟨?_, fun _ => ⟨?_, ?_⟩, by rintro _ ⟨⟩, by rintro _ _ _ ⟨⟩, by rintro _ ⟨⟩, ?_⟩
  · unfold request?
    rw [input?_snoc_of_start hrq rfl rfl]
    rfl
  · rw [emissions_snoc, hem]
    rfl
  · rw [acceptances_snoc, hacc]
    rfl
  · show completions _ _ = []
    rw [completions_snoc, hcomp]
    rfl

/-- After a step every request stands where its history says. -/
theorem Invariant.tracked_step (hi : Invariant config h e) (hr : Entity.Rule e move e' events)
    (htime : onTime ⟨e, move, events, e'⟩ = true) (ht' : e'.task? id = some (.requesting r phase)) :
    Tracked config (h ++ [⟨e, move, events, e'⟩]) e' id r phase := by
  by_cases hactor : actor? move = some id
  · obtain ⟨task, ht⟩ := hr.exists_task hactor
    obtain ⟨r, phase0, phase', rfl, -⟩ | ⟨m, _, _, -, hm⟩ := hr.remains hactor ht ht'
    · have hk := hi.tracked ht
      exact hk.step (hi.recorded hk.asked) hi.orderly hi.config_eq hr hactor ht ht'
    · cases hm
  · obtain hsame | ⟨input, rfl, rfl, hnew⟩ := hr.task?_of_ne hactor
    · rw [hsame] at ht'
      exact (hi.tracked ht').of_ne hi.orderly hr hactor ht' htime
    · rw [hnew, hi.orderly.fresh (Nat.le_refl _), Option.none_or, Option.some.injEq] at ht'
      cases input with
      | indication m => cases ht'
      | request r0 =>
        cases ht'
        cases hr
        exact hi.tracked_start

theorem Invariant.indicated_step {m : Message} {at_ : Indicating} (hi : Invariant config h e)
    (hr : Entity.Rule e move e' events) (ht' : e'.task? id = some (.indicating m at_)) :
    request? (h ++ [⟨e, move, events, e'⟩]) id = none := by
  by_cases hactor : actor? move = some id
  · obtain ⟨task, ht⟩ := hr.exists_task hactor
    obtain ⟨input, rfl, -, -⟩ | hsame := hr.input?_eq h id
    · cases hactor
    unfold request?
    rw [hsame]
    obtain ⟨r, _, _, -, hm⟩ | ⟨m, _, _, rfl, -⟩ := hr.remains hactor ht ht'
    · cases hm
    · exact hi.indicated ht
  · obtain hsame | ⟨input, rfl, rfl, hnew⟩ := hr.task?_of_ne hactor
    · rw [hsame] at ht'
      obtain ⟨input, rfl, rfl, -⟩ | hsame := hr.input?_eq h id
      · rw [hi.orderly.fresh (Nat.le_refl _)] at ht'
        cases ht'
      · unfold request?
        rw [hsame]
        exact hi.indicated ht'
    · rw [hnew, hi.orderly.fresh (Nat.le_refl _), Option.none_or, Option.some.injEq] at ht'
      cases input with
      | request r0 => cases ht'
      | indication m =>
        unfold request?
        rw [input?_snoc_of_start (hi.fresh (Nat.le_refl _)).1 rfl rfl]
        rfl

theorem Invariant.recorded_start (hi : Invariant config h e) {input : Input}
    (hr : Entity.Rule e (.start input) e' events) :
    Recorded config (h ++ [⟨e, .start input, events, e'⟩]) e.started r := by
  obtain ⟨-, hem, -, hacc⟩ := hi.fresh (Nat.le_refl e.started)
  obtain ⟨hactor, hnone⟩ := hr.absent (hi.orderly.fresh (Nat.le_refl _))
  refine .inl ⟨?_, ?_⟩
  · rw [emissions_snoc, hem, (hr.silent hactor).1]
    rfl
  · rw [acceptances_snoc, hacc, hnone]
    rfl

theorem Invariant.recorded_self (hi : Invariant config h e) (hr : Entity.Rule e move e' events)
    (hactor : actor? move = some id) (hrq : request? h id = some r) :
    Recorded config (h ++ [⟨e, move, events, e'⟩]) id r := by
  obtain ⟨task, ht⟩ := hr.exists_task hactor
  cases task with
  | indicating m0 phase0 =>
    rw [hi.indicated ht] at hrq
    cases hrq
  | requesting r0 phase0 =>
    have hold := hi.recorded hrq
    have hk := hi.tracked ht
    rw [hk.asked] at hrq
    cases hrq
    have hnone := Entity.acceptance?_self ⟨e, move, events, e'⟩ hactor ht id
    have hacc : acceptances (h ++ [⟨e, move, events, e'⟩]) id = acceptances h id := by
      rw [acceptances_snoc, hnone, Option.toList_none, List.append_nil]
    obtain hem | ⟨hl, reference, hem⟩ := hr.emits hactor ht
    · exact hold.congr (by rw [emissions_snoc, hem, List.append_nil]) hacc
    · obtain ⟨hem0, hacc0⟩ := hk.unsent hl
      refine .inr ⟨reference, _, carries_message, ?_, ?_⟩
      · rw [emissions_snoc, hem0, hem, hi.config_eq]
        rfl
      · rw [hacc, hacc0]
        simp

/-- Whoever is given something has a reference, and so is a request that was sent. -/
theorem Invariant.recorded_accepted (hi : Invariant config h e)
    (hr : Entity.Rule e move e' events)
    (hem : emissions (h ++ [⟨e, move, events, e'⟩]) id = emissions h id)
    (hrq : request? h id = some r) {m : Message}
    (hacc : acceptance? id ⟨e, move, events, e'⟩ = some m) :
    Recorded config (h ++ [⟨e, move, events, e'⟩]) id r := by
  obtain ⟨lease, hl⟩ : ∃ lease, e.lease? id = some lease := by
    rcases hl : e.lease? id with _ | lease
    · rw [acceptance?_of_lease?_eq_none hl] at hacc
      cases hacc
    · exact ⟨lease, rfl⟩
  obtain ⟨task, ht, hl⟩ := Option.bind_eq_some_iff.1 hl
  cases task with
  | indicating m0 phase0 => cases hl
  | requesting r0 phase0 =>
    have hold := hi.recorded hrq
    have hk := hi.tracked ht
    rw [hk.asked] at hrq
    cases hrq
    have hfits := hk.fits hi.orderly ht hr hl carries_message hacc
    refine .inr ⟨_, _, carries_message, hem.trans (hk.emitted hl), fun m' hm' => ?_⟩
    rw [acceptances_snoc, hacc, List.mem_append] at hm'
    obtain ⟨-, hnil⟩ | ⟨reference, sent, hcar, hsent, hall⟩ := hold
    · rw [hnil] at hm'
      obtain hm' | hm' := hm'
      · cases hm'
      · obtain rfl := List.mem_singleton.1 hm'
        exact hfits
    · rw [hk.emitted hl] at hsent
      obtain hm' | hm' := hm'
      · have hsame := List.singleton_inj.1 hsent
        have href := congrArg Message.reference hsame
        rw [carries_message.reference_eq, hcar.reference_eq] at href
        subst href
        exact hsame ▸ hall m' hm'
      · obtain rfl := List.mem_singleton.1 hm'
        exact hfits

theorem Invariant.recorded_step (hi : Invariant config h e) (hr : Entity.Rule e move e' events)
    (hrq : request? (h ++ [⟨e, move, events, e'⟩]) id = some r) :
    Recorded config (h ++ [⟨e, move, events, e'⟩]) id r := by
  obtain ⟨input, rfl, rfl, -⟩ | hsame := hr.input?_eq h id
  · exact hi.recorded_start hr
  unfold request? at hrq
  rw [hsame] at hrq
  by_cases hactor : actor? move = some id
  · exact hi.recorded_self hr hactor hrq
  · have hem : emissions (h ++ [⟨e, move, events, e'⟩]) id = emissions h id := by
      rw [emissions_snoc, (hr.silent hactor).1, List.append_nil]
    rcases hacc : acceptance? id ⟨e, move, events, e'⟩ with _ | m
    · exact (hi.recorded hrq).congr hem
        (by rw [acceptances_snoc, hacc, Option.toList_none, List.append_nil])
    · exact hi.recorded_accepted hr hem hrq hacc

/-- What a request returns was decided before, and its history says why. -/
theorem Invariant.concluded_step {s : Entity} {outcome : Outcome} (hi : Invariant config h e)
    (hr : Entity.Rule e move e' events)
    (hret : Returned (h ++ [⟨e, move, events, e'⟩]) id s (.requested outcome)) :
    ∃ r, request? (h ++ [⟨e, move, events, e'⟩]) id = some r ∧
      Conclusion config (h ++ [⟨e, move, events, e'⟩]) s id r outcome := by
  obtain hold | ⟨rfl, hnew⟩ := returned_snoc.1 hret
  · obtain ⟨r, hrq, hc⟩ := hi.concluded hold
    obtain ⟨hactor, hnone⟩ := hr.absent (hi.gone hold).1
    obtain ⟨hem, hcomp, -⟩ := hr.silent hactor
    exact ⟨r, request?_snoc_of_some hrq, hc.snoc hem hcomp hnone⟩
  · obtain ⟨rfl, rfl, hcases⟩ := hr.requested hnew
    obtain ⟨m, ht, hm, rfl⟩ | ⟨r, ht, hc, hl, rfl⟩ | ⟨r, lease, ht⟩ := hcases
    · have hk := hi.tracked ht
      refine ⟨_, request?_snoc_of_some hk.asked, .misused rfl hm ?_⟩
      rw [emissions_snoc, (hk.unsent rfl).1]
      rfl
    · have hk := hi.tracked ht
      refine ⟨_, request?_snoc_of_some hk.asked, .congested hc (hi.orderly.holds_of_full hl) ?_⟩
      rw [emissions_snoc, (hk.unsent rfl).1]
      rfl
    · have hk := hi.tracked ht
      have hnone := Entity.acceptance?_self
        ⟨e, .run id, [.returned id (.requested outcome)], e'⟩ rfl ht id
      have hem : emissions (h ++ [⟨e, .run id, [.returned id (.requested outcome)], e'⟩]) id =
          [r.message config.centre (UInt8.ofNat lease.index)] := by
        rw [emissions_snoc, hk.emitted rfl]
        rfl
      exact ⟨_, request?_snoc_of_some hk.asked, .settled carries_message hem
        (hk.progress.1.snoc rfl fun _ _ _ => hnone)⟩

/-- What an indication accepts is given to one request and to no other. -/
theorem Invariant.given_step {k : TaskId} {m : Message} (hi : Invariant config h e)
    (hr : Entity.Rule e (.run k) e' events) (ht : e.task? k = some (.indicating m .arrived))
    (hret : .returned k (.indicated (.ok ())) ∈ events) :
    ∃ id, acceptance? id ⟨e, .run k, events, e'⟩ = some m ∧
      ∀ j, (acceptance? j ⟨e, .run k, events, e'⟩).isSome → j = id := by
  cases hr with
  | delivered ht' hc hp =>
    rw [ht] at ht'
    cases ht'
    obtain ⟨holder, hh, -⟩ := Table.pending_postIf hp
    obtain ⟨box, hbox, -⟩ := hi.orderly.accounts.sound.holder_mailbox hh
    obtain ⟨id, hid⟩ := hi.orderly.accounts.owner hbox
    have hholds : e.holds id m.reference = true := Entity.holds_iff.2 ⟨holder, hid, hh⟩
    refine ⟨id, by simp [acceptance?, ht, hholds], fun j hj => ?_⟩
    simp only [acceptance?, ht] at hj
    split at hj
    · rename_i hj'
      exact hi.orderly.holds_unique hj' hholds
    · cases hj
  | _ => simp at hret

theorem Invariant.step (hi : Invariant config h e) (hs : e.step? move = some (e', events))
    (htime : onTime ⟨e, move, events, e'⟩ = true) :
    Invariant config (h ++ [⟨e, move, events, e'⟩]) e' := by
  have hr := Entity.rule_of_step? hs
  refine ⟨hi.orderly.step hs, hr.config_eq.trans hi.config_eq, hi.fresh_step hr,
    hi.tracked_step hr htime, hi.indicated_step hr, hi.recorded_step hr, ?_, hi.concluded_step hr,
    ?_⟩
  rotate_left
  · intro tr k m htr hmove ht hret
    obtain htr | htr := List.mem_append.1 htr
    · exact hi.given htr hmove ht hret
    · obtain rfl := List.mem_singleton.1 htr
      cases hmove
      exact hi.given_step hr ht hret
  intro id s result hret
  obtain hret | ⟨-, hret⟩ := returned_snoc.1 hret
  · obtain ⟨hn, hlt⟩ := hi.gone hret
    refine ⟨?_, Nat.lt_of_lt_of_le hlt hr.started_le⟩
    obtain hsame | ⟨input, rfl, rfl, -⟩ := hr.task?_of_ne (hr.absent hn).1
    · rw [hsame, hn]
    · exact absurd hlt (Nat.lt_irrefl _)
  · obtain ⟨hactor, hn⟩ := hr.gone hret
    obtain ⟨task, ht⟩ := hr.exists_task hactor
    exact ⟨hn, Nat.lt_of_lt_of_le (hi.orderly.lt_started ht) hr.started_le⟩

theorem invariant_of_run (hrun : Run Entity.step? (.ofConfig config) h e)
    (htime : ∀ tr ∈ h, onTime tr = true) : Invariant config h e :=
  hrun.invariant htime (invariant_ofConfig config) Invariant.step

/-! ## Returning -/

/-- A request that knows its outcome has only steps left to take that need no time. -/
theorem Invariant.returns {outcome : Outcome} (hi : Invariant config h e)
    (ht : e.task? id = some (.requesting r phase))
    (hv : Verdict h config.answerTime id r e.clock outcome) : Returns e id outcome := by
  have hk := hi.tracked ht
  have hp := hk.progress
  cases phase with
  | opening => exact absurd hp hv.completions_ne_nil
  | transmitting lease => exact absurd hp hv.completions_ne_nil
  | awaiting lease deadline =>
    obtain ⟨sent, hsent, rfl, -⟩ := hp
    obtain ⟨rfl, hnow⟩ := hv.of_ok hsent
    rw [hk.pending rfl rfl] at hnow ⊢
    exact returns_of_awaiting ht fun hnil => Nat.le_of_eq (hnow hnil).symm
  | expired lease =>
    obtain ⟨sent, hsent, -⟩ := hp
    obtain ⟨rfl, -⟩ := hv.of_ok hsent
    rw [hk.pending rfl rfl]
    exact returns_of_expired ht
  | closing lease outcome' =>
    rw [hv.unique hp.1]
    exact returns_of_closing ht

/-- A request without an answer has not waited longer than its time. -/
theorem Invariant.prompt {sent : Nat} (hi : Invariant config h e)
    (ht : e.task? id = some (.requesting r phase))
    (hsent : completions h id = [(sent, .ok ())]) (hacc : acceptances h id = []) :
    e.clock ≤ sent + config.answerTime := by
  have hp := (hi.tracked ht).progress
  cases phase with
  | opening => rw [hp] at hsent; cases hsent
  | transmitting lease => rw [hp] at hsent; cases hsent
  | awaiting lease deadline =>
    obtain ⟨sent', hsent', rfl, hle⟩ := hp
    rw [hsent] at hsent'
    cases hsent'
    exact hle
  | expired lease =>
    obtain ⟨sent', hsent', hnow⟩ := hp
    rw [hsent] at hsent'
    cases hsent'
    exact Nat.le_of_eq hnow
  | closing lease outcome => exact Nat.le_of_eq ((hp.1.of_ok hsent).2 hacc)

/-! ## The result -/

/-- Requests and answers are not mixed up, whatever the order in which requests, answers, the
transport, the application, the clock and the end of tasks come. -/
theorem correlated_of_run (hrun : Run Entity.step? (.ofConfig config) h e)
    (htime : ∀ tr ∈ h, onTime tr = true) : Correlated config h e := by
  have hi := invariant_of_run hrun htime
  refine ⟨fun hout => ⟨hi.orderly.holds_of_outstanding hout, ?_⟩, ?_, ?_, hi.recorded,
    hi.concluded, hi.given, ?_, ?_, hi.prompt, hi.returns⟩
  · obtain ⟨phase, lease, ht, -, hl, rfl⟩ := hout
    exact ⟨_, carries_message, (hi.tracked ht).emitted hl⟩
  · exact hi.orderly.holds_unique
  · intro id reference reference' hholds hholds'
    obtain ⟨holder, hl, hh⟩ := Entity.holds_iff.1 hholds
    obtain ⟨holder', hl', hh'⟩ := Entity.holds_iff.1 hholds'
    rw [hl] at hl'
    have heq := Option.some.inj hl'
    have hindex := hi.orderly.accounts.sound.holder_index hh
    have hindex' := hi.orderly.accounts.sound.holder_index hh'
    rw [heq, hindex'] at hindex
    exact UInt8.toNat_inj.1 hindex.symm
  · intro id r ht
    simp only [Entity.run, ht, Entity.runRequest, Entity.openRequest,
      Entity.openRequest.takeReference, Entity.finish]
    repeat' split
    all_goals rfl
  · intro id r lease ht result
    cases result <;> simp [Entity.sent, ht, Entity.become]

/-- The end of each request in a history: when it came, of which task, and what was returned. -/
def endings (h : List Step) : List (Nat × TaskId × Outcome) :=
  h.flatMap fun tr => tr.events.filterMap fun
    | .returned id (.requested outcome) => some (tr.before.clock, id, outcome)
    | _ => none

/-- Five requests are sent: a message that is taken with a report, a notice that waits in vain, two
with which the transport fails, and a notice that is turned down before the transport is done. -/
def fiveOutcomes : List (Move Input) :=
  [.start (.request (.transfer message)), .start (.request .notice),
    .start (.request (.transfer message)), .start (.request .notice), .start (.request .notice),
    .run 0, .run 1, .run 2, .run 3, .run 4, .sent 0 (.ok ()), .sent 1 (.ok ()),
    .sent 2 (.error (.control .networkFailure)), .sent 3 (.error (.transport "closed")),
    .start (.indication (.error .toMobile 4 (.ofCode 22) (some 5) none)), .run 5, .sent 4 (.ok ()),
    .start (.indication (.ack .toMobile 0 (some report))), .run 6, .run 0, .run 4, .run 0,
    .run 2, .run 3, .run 4, .elapse 35000, .expire 1, .run 1, .run 1]
where
  message : Transfer.Message :=
    .submit { reference := 9, destination := ⟨.international, .isdn, .digits []⟩ }
  report : Transfer.Message := .submitReport { timestamp := ⟨2000, 1, 1, 0, 0, 0, 0⟩ }

/-- Every request comes to what the transport, its answer or the clock says. -/
theorem correlated_fiveOutcomes :
    ∃ h e, replay Entity.step? (.ofConfig {}) fiveOutcomes = some (h, e) ∧
      (∀ tr ∈ h, onTime tr = true) ∧ Correlated {} h e ∧
      endings h = [(0, 0, .ok (some fiveOutcomes.report)), (0, 2, .error (bareFailure 47)),
        (0, 3, .error (bareFailure 111)), (0, 4, .error (.relay (.ofCode 22) (some 5) none)),
        (35000, 1, .error (bareFailure 47))] := by
  obtain ⟨⟨h, e⟩, hr⟩ : ∃ r, replay Entity.step? (.ofConfig {}) fiveOutcomes = some r :=
    Option.isSome_iff_exists.1 (by decide +kernel)
  have hall : ((replay Entity.step? (.ofConfig {}) fiveOutcomes).map fun r =>
      r.1.all onTime && endings r.1 == [(0, 0, .ok (some fiveOutcomes.report)),
        (0, 2, .error (bareFailure 47)), (0, 3, .error (bareFailure 111)),
        (0, 4, .error (.relay (.ofCode 22) (some 5) none)),
        (35000, 1, .error (bareFailure 47))]) = some true := by decide +kernel
  simp only [hr, Option.map_some, Option.some.injEq, Bool.and_eq_true, List.all_eq_true,
    beq_iff_eq] at hall
  exact ⟨h, e, hr, hall.1, correlated_of_run (run_of_replay hr) hall.1, hall.2⟩

end

end ShortMessage.Relay
