import ShortMessage.Proofs.Relay.History

/-!
# What a relay entity hands to its transport

Nothing is said here of time or of how the transport fares, so all of it holds of every run.

* `Said` — where a task stands says what it has handed to its transport: a request its one message,
  an indication its answer; what was accepted for a request is still there or has decided it
  (`Settled`);
* `spoken_of_run` — every step keeps that;
* `Entity.silent_of_gone` — a task that has ended says nothing any more.
-/

namespace ShortMessage.Relay

open Transaction
open Entity (leaseOf?)

section

variable {config : Config} {h k : List Step} {e e' : Entity} {id : TaskId} {r : Request}
  {phase : Requesting} {move : Move Input} {events : List (Event Message Result)} {task : Task}
  {lease : Lease} {outcome : Outcome}

/-- What has decided the outcome of a request: the transport failed, an answer was accepted, or the
reference was given back when none was there. -/
inductive Settled (h : List Step) (e : Entity) (id : TaskId) (r : Request) (lease : Lease) :
    Outcome → Prop where
  | failed {failure} : (∃ time, (time, .error failure) ∈ completions h id) →
      Settled h e id r lease (.error (sendFailure failure))
  | answered {a} : (acceptances h id).head? = some a → Settled h e id r lease (r.outcome (some a))
  | unanswered : acceptances h id = [] → e.references.isReleased lease = true →
      Settled h e id r lease (r.outcome none)

/-- What the history says of a request, by where it stands. -/
def Asked (config : Config) (h : List Step) (e : Entity) (id : TaskId) (r : Request) :
    Requesting → Prop
  | .opening => emissions h id = [] ∧ acceptances h id = []
  | .transmitting lease | .awaiting lease _ | .expired lease =>
    emissions h id = [r.message config.centre (UInt8.ofNat lease.index)] ∧
      acceptances h id = e.references.pending lease ∧
      ∀ i key, e.references.holder? i = some ⟨lease, key⟩ → key = r.answerDirection
  | .closing lease outcome =>
    emissions h id = [r.message config.centre (UInt8.ofNat lease.index)] ∧
      Settled h e id r lease outcome

/-- What the history says of a task. -/
def Said (config : Config) (h : List Step) (e : Entity) (id : TaskId) : Task → Prop
  | .requesting r phase => Asked config h e id r phase
  | .indicating _ (.replying answer) => emissions h id = [answer]
  | .indicating _ _ => emissions h id = []

/-- What holds along every run. -/
structure Spoken (config : Config) (h : List Step) (e : Entity) : Prop where
  orderly : e.Orderly
  config_eq : e.config = config
  fresh : ∀ {id}, e.started ≤ id → emissions h id = [] ∧ acceptances h id = []
  said : ∀ {id task}, e.task? id = some task → Said config h e id task

theorem spoken_ofConfig (config : Config) : Spoken config [] (.ofConfig config) where
  orderly := Entity.orderly_ofConfig config
  config_eq := rfl
  fresh _ := ⟨rfl, rfl⟩
  said := by rintro _ _ ⟨⟩

/-- The first answer decides, or the lack of one. -/
theorem Settled.of_head? (hrel : e.references.isReleased lease = true) :
    Settled h e id r lease (r.outcome (acceptances h id).head?) := by
  cases hacc : acceptances h id with
  | nil => exact .unanswered hacc hrel
  | cons a rest => exact .answered (by rw [hacc]; rfl)

theorem Settled.of_ne (hs : Settled h e id r lease outcome) (ho : e.Orderly)
    (hr : Entity.Rule e move e' events) (hid : actor? move ≠ some id)
    (hl : e.lease? id = some lease) :
    Settled (h ++ [⟨e, move, events, e'⟩]) e' id r lease outcome := by
  cases hs with
  | failed hmem =>
    obtain ⟨time, hmem⟩ := hmem
    refine .failed ⟨time, ?_⟩
    rw [completions_snoc]
    exact List.mem_append_left _ hmem
  | answered hacc =>
    refine .answered ?_
    rw [acceptances_snoc, List.head?_append, hacc, Option.some_or]
  | unanswered hacc hrel =>
    refine .unanswered ?_ ((hr.lease_of_ne ho hid hl).1.trans hrel)
    rw [acceptances_snoc, hacc, acceptance?_of_released ho hl hrel]
    rfl

theorem Asked.of_ne (ha : Asked config h e id r phase) (ho : e.Orderly)
    (hr : Entity.Rule e move e' events) (hid : actor? move ≠ some id)
    (ht : e.task? id = some (.requesting r phase)) :
    Asked config (h ++ [⟨e, move, events, e'⟩]) e' id r phase := by
  have hem : emissions (h ++ [⟨e, move, events, e'⟩]) id = emissions h id := by
    rw [emissions_snoc, (hr.silent hid).1, List.append_nil]
  have hl := Entity.lease?_eq ht
  have hopen {lease : Lease} (hl : e.lease? id = some lease)
      (ha : emissions h id = [r.message config.centre (UInt8.ofNat lease.index)] ∧
        acceptances h id = e.references.pending lease ∧
        ∀ i key, e.references.holder? i = some ⟨lease, key⟩ → key = r.answerDirection) :
      emissions (h ++ [⟨e, move, events, e'⟩]) id =
          [r.message config.centre (UInt8.ofNat lease.index)] ∧
        acceptances (h ++ [⟨e, move, events, e'⟩]) id = e'.references.pending lease ∧
        ∀ i key, e'.references.holder? i = some ⟨lease, key⟩ → key = r.answerDirection := by
    obtain ⟨-, hpending, hholder⟩ := hr.lease_of_ne ho hid hl
    refine ⟨hem.trans ha.1, ?_, fun i key hi => ha.2.2 i key (hholder i key hi)⟩
    rw [acceptances_snoc, ha.2.1, hpending]
  cases phase with
  | opening =>
    refine ⟨hem.trans ha.1, ?_⟩
    rw [acceptances_snoc, ha.2, acceptance?_of_lease?_eq_none hl]
    rfl
  | transmitting lease => exact hopen hl ha
  | awaiting lease deadline => exact hopen hl ha
  | expired lease => exact hopen hl ha
  | closing lease outcome => exact ⟨hem.trans ha.1, ha.2.of_ne ho hr hid hl⟩

theorem Said.of_ne (hs : Said config h e id task) (ho : e.Orderly)
    (hr : Entity.Rule e move e' events) (hid : actor? move ≠ some id)
    (ht : e.task? id = some task) : Said config (h ++ [⟨e, move, events, e'⟩]) e' id task := by
  have hem : emissions (h ++ [⟨e, move, events, e'⟩]) id = emissions h id := by
    rw [emissions_snoc, (hr.silent hid).1, List.append_nil]
  cases task with
  | requesting r phase => exact Asked.of_ne hs ho hr hid ht
  | indicating m phase => cases phase <;> exact hem.trans hs

/-! ## Steps of the task -/

/-- The task itself goes on. -/
theorem Said.step {task' : Task} (hs : Said config h e id task) (ho : e.Orderly)
    (hconfig : e.config = config) (hr : Entity.Rule e move e' events)
    (ha : actor? move = some id) (ht : e.task? id = some task) (ht' : e'.task? id = some task') :
    Said config (h ++ [⟨e, move, events, e'⟩]) e' id task' := by
  have hgoes {task1 task2 : Task} {t : Table Message Direction} (h1 : e.task? id = some task1)
      (h2 : (({ e with references := t } : Entity).put id task2).task? id = some task') :
      task = task1 ∧ task' = task2 := by
    rw [Entity.task?_put_self h1] at h2
    exact ⟨Option.some.inj (ht.symm.trans h1), (Option.some.inj h2).symm⟩
  have hquiet {r : Request} {phase : Requesting} (h0 : e.task? id = some (.requesting r phase)) :
      acceptances (h ++ [⟨e, move, events, e'⟩]) id = acceptances h id := by
    rw [acceptances_snoc, Entity.acceptance?_self _ ha h0]
    exact List.append_nil _
  have hsilent (hev : events.filterMap (·.emittedBy? id) = []) :
      emissions (h ++ [⟨e, move, events, e'⟩]) id = emissions h id := by
    rw [emissions_snoc, hev, List.append_nil]
  cases hr with
  | start input => cases ha
  | elapsed duration => cases ha
  | @opened j r lease references h0 hc hl =>
    cases ha
    obtain ⟨rfl, rfl⟩ := hgoes h0 ht'
    have hleased := ho.accounts.sound.leased_of_lease? hl
    refine ⟨?_, ?_, fun i key hi => ?_⟩
    · rw [emissions_snoc, hs.1, hconfig]
      simp [Event.emittedBy?]
    · rw [hquiet h0, hs.2]
      exact ((hleased.pending lease).trans (if_pos rfl)).symm
    · have hi' := (hleased.holder i).symm.trans hi
      split at hi'
      · cases hi'; rfl
      · obtain ⟨box, hbox, -⟩ := ho.accounts.sound.holder_mailbox hi'
        rw [hleased.fresh] at hbox
        cases hbox
  | took h0 htake =>
    cases ha
    obtain ⟨rfl, rfl⟩ := hgoes h0 ht'
    refine ⟨(hsilent rfl).trans hs.1, .answered ?_⟩
    rw [hquiet h0, hs.2.1, Table.pending_take? htake, List.head?_cons]
  | @retired j r lease h0 =>
    cases ha
    obtain ⟨rfl, rfl⟩ := hgoes h0 ht'
    refine ⟨(hsilent rfl).trans hs.1, ?_⟩
    have hhead := congrArg List.head? (hquiet h0)
    rw [hs.2.1, ← Table.retire_fst] at hhead
    refine (congrArg (fun late => Settled _ _ id r lease (r.outcome late)) hhead).mp ?_
    exact .of_head? ((Table.isReleased_retire _ _ _).trans (if_pos rfl))
  | sent h0 =>
    cases ha
    obtain ⟨rfl, rfl⟩ := hgoes h0 ht'
    exact ⟨(hsilent rfl).trans hs.1, (hquiet h0).trans hs.2.1, hs.2.2⟩
  | failed h0 =>
    cases ha
    obtain ⟨rfl, rfl⟩ := hgoes h0 ht'
    refine ⟨(hsilent rfl).trans hs.1, .failed ⟨e.clock, ?_⟩⟩
    rw [completions_snoc]
    simp [completion?]
  | expired h0 =>
    cases ha
    obtain ⟨rfl, rfl⟩ := hgoes h0 ht'
    exact ⟨(hsilent rfl).trans hs.1, (hquiet h0).trans hs.2.1, hs.2.2⟩
  | called h0 =>
    cases ha
    obtain ⟨rfl, rfl⟩ := hgoes h0 ht'
    exact (hsilent (by simp [Event.emittedBy?])).trans hs
  | answered h0 =>
    cases ha
    obtain ⟨rfl, rfl⟩ := hgoes h0 ht'
    show emissions _ id = _
    rw [emissions_snoc, show emissions h id = [] from hs]
    simp [Event.emittedBy?]
  | _ =>
    cases ha
    simp at ht'

theorem Spoken.fresh_step (hp : Spoken config h e) (hr : Entity.Rule e move e' events)
    (hid : e.started ≤ id) : emissions (h ++ [⟨e, move, events, e'⟩]) id = [] ∧
      acceptances (h ++ [⟨e, move, events, e'⟩]) id = [] := by
  obtain ⟨hem, hacc⟩ := hp.fresh hid
  obtain ⟨hactor, hnone⟩ := hr.absent (hp.orderly.fresh hid)
  constructor
  · rw [emissions_snoc, hem, (hr.silent hactor).1]
    rfl
  · rw [acceptances_snoc, hacc, hnone]
    rfl

theorem Spoken.step (hp : Spoken config h e) (hs : e.step? move = some (e', events)) :
    Spoken config (h ++ [⟨e, move, events, e'⟩]) e' := by
  have hr := Entity.rule_of_step? hs
  refine ⟨hp.orderly.step hs, hr.config_eq.trans hp.config_eq,
    fun hid => hp.fresh_step hr (Nat.le_trans hr.started_le hid), fun {id task'} ht' => ?_⟩
  by_cases hactor : actor? move = some id
  · obtain ⟨task, ht⟩ := hr.exists_task hactor
    exact (hp.said ht).step hp.orderly hp.config_eq hr hactor ht ht'
  · obtain hsame | ⟨input, rfl, rfl, hnew⟩ := hr.task?_of_ne hactor
    · rw [hsame] at ht'
      exact (hp.said ht').of_ne hp.orderly hr hactor ht'
    · rw [hnew, hp.orderly.fresh (Nat.le_refl _), Option.none_or, Option.some.injEq] at ht'
      subst ht'
      have hnone := hp.fresh_step hr (Nat.le_refl _)
      cases input with
      | request r => exact hnone
      | indication m => exact hnone.1

theorem spoken_of_run (hrun : Run Entity.step? (.ofConfig config) h e) : Spoken config h e := by
  induction hrun with
  | rest => exact spoken_ofConfig config
  | step _ hs ih => exact ih.step hs

/-- A task that has ended says nothing any more, and nothing is accepted for it. -/
theorem Entity.silent_of_gone (hrun : Run Entity.step? e k e') (hn : e.task? id = none)
    (hlt : id < e.started) : emissions k id = [] ∧ acceptances k id = [] := by
  have hinv : (e'.task? id = none ∧ id < e'.started) ∧
      emissions k id = [] ∧ acceptances k id = [] := by
    induction hrun with
    | rest => exact ⟨⟨hn, hlt⟩, rfl, rfl⟩
    | step _ hs ih =>
      obtain ⟨⟨hn, hlt⟩, hem, hacc⟩ := ih
      have hr := Entity.rule_of_step? hs
      obtain ⟨hactor, hnone⟩ := hr.absent hn
      refine ⟨⟨?_, Nat.lt_of_lt_of_le hlt hr.started_le⟩, ?_, ?_⟩
      · obtain hsame | ⟨input, rfl, rfl, -⟩ := hr.task?_of_ne hactor
        · rw [hsame, hn]
        · exact absurd hlt (Nat.lt_irrefl _)
      · rw [emissions_snoc, hem, (hr.silent hactor).1]
        rfl
      · rw [acceptances_snoc, hacc, hnone]
        rfl
  exact hinv.2

end

end ShortMessage.Relay
