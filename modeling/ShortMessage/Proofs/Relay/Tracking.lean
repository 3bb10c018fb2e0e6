import ShortMessage.Proofs.Relay.Outcome

/-!
# What the history says of a running request

`Tracked` ties the place at which a request stands to its history: what was asked, what was sent,
what the transport said, and that all that was accepted for it is still there until its outcome is
known.  It is kept by every step, whoever takes it:

* `Tracked.of_ne` — a step of another task, or of the clock;
* `Tracked.opened` — the request takes its reference and is sent;
* `Tracked.step` — any other step of the request itself;
* `Tracked.fits` — what is accepted for a request answers it.
-/

namespace ShortMessage.Relay

open Transaction
open Entity (leaseOf?)

section

variable {config : Config} {h : List Step} {e e' : Entity} {id : TaskId} {r : Request}
  {phase : Requesting} {move : Move Input} {events : List (Event Message Result)}

/-- How far a request has come, by its history. -/
def Progress (answerTime : Nat) (h : List Step) (e : Entity) (id : TaskId) (r : Request) :
    Requesting → Prop
  | .opening | .transmitting _ => completions h id = []
  | .awaiting _ deadline => ∃ sent, completions h id = [(sent, .ok ())] ∧
      deadline = sent + answerTime ∧ e.clock ≤ deadline
  | .expired _ => ∃ sent, completions h id = [(sent, .ok ())] ∧ e.clock = sent + answerTime
  | .closing lease outcome => Verdict h answerTime id r e.clock outcome ∧
      (acceptances h id = [] → ∀ sent, completions h id = [(sent, .ok ())] →
        e.references.isReleased lease = true)

/-- What the history says of a running request. -/
structure Tracked (config : Config) (h : List Step) (e : Entity) (id : TaskId) (r : Request)
    (phase : Requesting) : Prop where
  asked : request? h id = some r
  unsent : leaseOf? (.requesting r phase) = none → emissions h id = [] ∧ acceptances h id = []
  emitted : ∀ {lease}, leaseOf? (.requesting r phase) = some lease →
    emissions h id = [r.message config.centre (UInt8.ofNat lease.index)]
  keyed : ∀ {lease i key}, leaseOf? (.requesting r phase) = some lease →
    e.references.holder? i = some ⟨lease, key⟩ → key = r.answerDirection
  /-- Until the outcome is known, all that was accepted is still there. -/
  pending : ∀ {lease}, leaseOf? (.requesting r phase) = some lease → phase.isOpen = true →
    acceptances h id = e.references.pending lease
  progress : Progress config.answerTime h e id r phase

theorem Progress.of_ne {tr : Step} (hp : Progress config.answerTime h e id r phase)
    (ho : e.Orderly) (hr : Entity.Rule e move e' events) (hid : actor? move ≠ some id)
    (ht : e.task? id = some (.requesting r phase)) (htime : onTime ⟨e, move, events, e'⟩ = true)
    (htr : tr = ⟨e, move, events, e'⟩) :
    Progress config.answerTime (h ++ [tr]) e' id r phase := by
  subst htr
  obtain ⟨-, hcomp, -⟩ := hr.silent hid
  have hcs : completions (h ++ [⟨e, move, events, e'⟩]) id = completions h id := by
    rw [completions_snoc, hcomp]
    simp
  -- a task that can run stops the clock
  have hclock : (e.run id).isSome = true → e'.clock = e.clock := by
    intro hrun
    refine hr.clock_eq fun d hd => ?_
    subst hd
    rw [(of_onTime htime ht).1] at hrun
    cases hrun
  cases phase with
  | opening => exact hcs.trans hp
  | transmitting lease => exact hcs.trans hp
  | awaiting lease deadline =>
    obtain ⟨sent, hsent, hd, hle⟩ := hp
    refine ⟨sent, hcs.trans hsent, hd, ?_⟩
    cases hr with
    | elapsed d => exact (of_onTime htime ht).2 (by simp [Entity.deadline?, ht])
    | _ => exact hle
  | expired lease =>
    obtain ⟨sent, hsent, hnow⟩ := hp
    refine ⟨sent, hcs.trans hsent, (hclock ?_).trans hnow⟩
    simp [Entity.run, ht, Entity.runRequest, Entity.become]
  | closing lease outcome =>
    have hl := Entity.lease?_eq ht
    obtain ⟨hv, hrel⟩ := hp
    have hnone : acceptances h id = [] → ∀ sent, completions h id = [(sent, .ok ())] →
        acceptance? id ⟨e, move, events, e'⟩ = none :=
      fun ha sent hs => acceptance?_of_released ho hl (hrel ha sent hs)
    refine ⟨?_, fun ha sent hs => ?_⟩
    · rw [hclock (by simp [Entity.run, ht, Entity.runRequest, Entity.finish])]
      exact hv.snoc hcomp hnone
    · rw [acceptances_snoc, List.append_eq_nil_iff] at ha
      rw [hcs] at hs
      rw [(hr.lease_of_ne ho hid hl).1]
      exact hrel ha.1 sent hs

theorem Tracked.of_ne (hk : Tracked config h e id r phase) (ho : e.Orderly)
    (hr : Entity.Rule e move e' events) (hid : actor? move ≠ some id)
    (ht : e.task? id = some (.requesting r phase)) (htime : onTime ⟨e, move, events, e'⟩ = true) :
    Tracked config (h ++ [⟨e, move, events, e'⟩]) e' id r phase := by
  obtain ⟨hem, -, -⟩ := hr.silent hid
  refine ⟨request?_snoc_of_some hk.asked, fun hl => ?_, fun hl => ?_, fun hl hi => ?_,
    fun hl hopen => ?_, hk.progress.of_ne ho hr hid ht htime rfl⟩
  · have hnone : acceptance? id ⟨e, move, events, e'⟩ = none := by
      rcases ha : acceptance? id ⟨e, move, events, e'⟩ with _ | m
      · rfl
      · have := Entity.acceptance?_eq_some ha
        simp [Entity.holds, Entity.lease?_eq ht, hl] at this
    obtain ⟨h1, h2⟩ := hk.unsent hl
    rw [emissions_snoc, acceptances_snoc, hem, hnone, h1, h2]
    exact ⟨rfl, rfl⟩
  · rw [emissions_snoc, hem, List.append_nil]
    exact hk.emitted hl
  · exact hk.keyed hl ((hr.lease_of_ne ho hid ((Entity.lease?_eq ht).trans hl)).2.2 _ _ hi)
  · rw [acceptances_snoc, hk.pending hl hopen]
    exact ((hr.lease_of_ne ho hid ((Entity.lease?_eq ht).trans hl)).2.1).symm

theorem Tracked.opened {references : Table Message Direction} {lease : Lease}
    (hk : Tracked config h e id r .opening) (ho : e.Orderly) (hconfig : e.config = config)
    (hl : e.references.lease? r.answerDirection = some (lease, references))
    (he : e'.references = references) :
    Tracked config (h ++ [⟨e, .run id, [.emitted id (r.message e.config.centre
      (UInt8.ofNat lease.index))], e'⟩]) e' id r (.transmitting lease) := by
  have hleased := ho.accounts.sound.leased_of_lease? hl
  obtain ⟨hem, hacc⟩ := hk.unsent rfl
  refine ⟨request?_snoc_of_some hk.asked, by rintro ⟨⟩, ?_, ?_, ?_, ?_⟩
  · rintro _ ⟨⟩
    rw [emissions_snoc, hem, hconfig]
    simp [Event.emittedBy?]
  · rintro _ i key ⟨⟩ hi
    rw [he, hleased.holder] at hi
    split at hi
    · cases hi; rfl
    · obtain ⟨box, hbox, -⟩ := ho.accounts.sound.holder_mailbox hi
      rw [hleased.fresh] at hbox
      cases hbox
  · rintro _ ⟨⟩ -
    rw [acceptances_snoc, hacc, he, hleased.pending, if_pos rfl]
    simp [acceptance?]
  · show completions _ id = []
    rw [completions_snoc, hk.progress]
    rfl

/-- A request that goes on with its reference has said nothing and been given nothing. -/
theorem Tracked.onward {phase' : Requesting} {lease : Lease} (hk : Tracked config h e id r phase)
    (ha : actor? move = some id) (ht : e.task? id = some (.requesting r phase))
    (hl : leaseOf? (.requesting r phase) = some lease)
    (hl' : leaseOf? (.requesting r phase') = some lease)
    (hholder : ∀ i key, e'.references.holder? i = some ⟨lease, key⟩ →
      e.references.holder? i = some ⟨lease, key⟩)
    (hpending : phase'.isOpen = true → phase.isOpen = true ∧
      e'.references.pending lease = e.references.pending lease)
    (hprogress : Progress config.answerTime (h ++ [⟨e, move, [], e'⟩]) e' id r phase') :
    Tracked config (h ++ [⟨e, move, [], e'⟩]) e' id r phase' := by
  have hacc : acceptance? id ⟨e, move, [], e'⟩ = none := Entity.acceptance?_self _ ha ht id
  refine ⟨request?_snoc_of_some hk.asked, fun hn => ?_, fun hn => ?_, fun hn hi => ?_,
    fun hn hopen => ?_, hprogress⟩
  · rw [hn] at hl'; cases hl'
  · rw [hl'] at hn
    cases hn
    rw [emissions_snoc, hk.emitted hl]
    rfl
  · rw [hl'] at hn
    cases hn
    exact hk.keyed hl (hholder _ _ hi)
  · rw [hl'] at hn
    cases hn
    obtain ⟨hopen', hsame⟩ := hpending hopen
    rw [acceptances_snoc, hacc, hk.pending hl hopen', hsame]
    simp

/-- What a request does itself agrees with what the history says of it. -/
theorem Tracked.step (hk : Tracked config h e id r phase) (hrec : Recorded config h id r)
    (ho : e.Orderly) (hconfig : e.config = config) (hr : Entity.Rule e move e' events)
    (ha : actor? move = some id) (ht : e.task? id = some (.requesting r phase))
    {r' : Request} {phase' : Requesting} (ht' : e'.task? id = some (.requesting r' phase')) :
    Tracked config (h ++ [⟨e, move, events, e'⟩]) e' id r' phase' := by
  have hacc : acceptance? id ⟨e, move, events, e'⟩ = none := Entity.acceptance?_self _ ha ht id
  have hsame {task task' : Task} {t : Table Message Direction} (h1 : e.task? id = some task)
      (h2 : (({ e with references := t } : Entity).put id task').task? id =
        some (.requesting r' phase')) : task' = .requesting r' phase' := by
    simpa [h1] using h2
  cases hr with
  | start input => cases ha
  | elapsed duration => cases ha
  | opened ht0 hc hl =>
    cases ha
    cases hsame ht0 ht'
    rw [ht] at ht0
    cases ht0
    exact hk.opened ho hconfig hl rfl
  | took ht0 htake =>
    cases ha
    cases hsame ht0 ht'
    rw [ht] at ht0
    cases ht0
    obtain ⟨sent, hsent, -, -⟩ := hk.progress
    have hp := hk.pending rfl rfl
    rw [Table.pending_take? htake] at hp
    have hans := hrec.answers (hp ▸ List.mem_cons_self)
    refine hk.onward rfl ht rfl rfl (fun i key hi => (Table.holder?_take? htake i).symm.trans hi)
      (by rintro ⟨⟩) ⟨(Verdict.answered hsent hp hans).snoc rfl fun h0 => ?_, fun h0 => ?_⟩
    · rw [h0] at hp; cases hp
    · rw [acceptances_snoc, hp] at h0; cases h0
  | retired ht0 =>
    cases ha
    cases hsame ht0 ht'
    rw [ht] at ht0
    cases ht0
    obtain ⟨sent, hsent, hnow⟩ := hk.progress
    have hp := hk.pending rfl rfl
    refine hk.onward rfl ht rfl rfl (fun i key hi => ?_) (by rintro ⟨⟩) ⟨?_, fun h0 => ?_⟩
    · have hi' := (ho.accounts.sound.holder?_retire _ i).symm.trans hi
      exact (Option.filter_eq_some_iff.1 hi').1
    · rw [Table.retire_fst, ← hp]
      rcases hq : acceptances h id with _ | ⟨m, rest⟩
      · rw [List.head?_nil, outcome_none]
        exact (Verdict.expired hsent hq hnow).snoc rfl fun _ _ _ => hacc
      · have hans := hrec.answers (hq ▸ List.mem_cons_self)
        exact (Verdict.answered hsent hq hans).snoc rfl fun h0 => by rw [h0] at hq; cases hq
    · intro _ _
      exact (Table.isReleased_retire _ _ _).trans (if_pos rfl)
  | sent ht0 =>
    cases ha
    cases hsame ht0 ht'
    rw [ht] at ht0
    cases ht0
    refine hk.onward rfl ht rfl rfl (fun i key hi => hi) (fun _ => ⟨rfl, rfl⟩)
      ⟨e.clock, ?_, by rw [hconfig], Nat.le_add_right _ _⟩
    rw [completions_snoc, hk.progress]
    simp [completion?]
  | @failed k r0 lease failure ht0 =>
    cases ha
    cases hsame ht0 ht'
    rw [ht] at ht0
    cases ht0
    have hsent : ∀ s, completions (h ++ [⟨e, .sent id (.error failure), [], s⟩]) id =
        [(e.clock, .error failure)] := by
      intro s
      rw [completions_snoc, hk.progress]
      simp [completion?]
    refine hk.onward rfl ht rfl rfl (fun i key hi => hi) (by rintro ⟨⟩)
      ⟨.failed (hsent _) (reported_iff.2 rfl), fun _ sent hs => ?_⟩
    rw [hsent] at hs
    cases hs
  | expired ht0 hd hp =>
    cases ha
    cases hsame ht0 ht'
    rw [ht] at ht0
    cases ht0
    obtain ⟨sent, hsent, hdead, hle⟩ := hk.progress
    refine hk.onward rfl ht rfl rfl (fun i key hi => hi) (fun _ => ⟨rfl, rfl⟩) ⟨sent, ?_, ?_⟩
    · rw [completions_snoc, hsent]
      rfl
    · exact (Nat.le_antisymm hle hd).trans hdead
  | called ht0 _ => cases ha; rw [ht] at ht0; cases ht0
  | answered ht0 _ => cases ha; rw [ht] at ht0; cases ht0
  | _ =>
    cases ha
    simp at ht'

/-- What is accepted for a request fits it. -/
theorem Tracked.fits {m sent : Message} {lease : Lease} (hk : Tracked config h e id r phase)
    (ho : e.Orderly) (ht : e.task? id = some (.requesting r phase))
    (hr : Entity.Rule e move e' events) (hl : leaseOf? (.requesting r phase) = some lease)
    (hc : Carries config.centre (UInt8.ofNat lease.index) r sent)
    (ha : acceptance? id ⟨e, move, events, e'⟩ = some m) :
    Fits r (UInt8.ofNat lease.index) sent m := by
  have hholds := Entity.acceptance?_eq_some ha
  simp only [Entity.holds, Entity.lease?_eq ht, hl, Option.any_some, Option.any_eq_true,
    decide_eq_true_eq] at hholds
  obtain ⟨holder, hi, rfl⟩ := hholds
  have hindex := ho.accounts.sound.holder_index hi
  have hkey := hk.keyed hl hi
  cases hr with
  | @delivered k m' references ht' hcall hp =>
    obtain ⟨holder', hi', hdir, -⟩ := Table.pending_postIf hp
    have hm : m' = m := by
      simp only [acceptance?, ht'] at ha
      split at ha
      · exact Option.some.inj ha
      · cases ha
    subst hm
    rw [hi] at hi'
    cases hi'
    have hanswer : m'.isRequest = false := by
      cases m' with
      | data _ _ _ => cases hcall
      | memoryAvailable _ => cases hcall
      | _ => rfl
    have hway : m'.direction = r.answerDirection := (of_decide_eq_true hdir).trans hkey
    exact ⟨⟨_, answers_outcome hanswer⟩, by simp [hindex], hway ▸ hc.direction_ne⟩
  | _ => simp [acceptance?] at ha

end

end ShortMessage.Relay
