import ShortMessage.Transaction.Process

/-!
# Runs

`Run step? s h t` says that the steps `h`, the oldest first, lead from the state `s` to the state
`t`.  A run records for each step the state before it, the move, what others saw and the state
after it, so that a statement about "after", "before" or "never" is one about a list.

* `Run.append`, `run_of_replay` — runs are put together, and a list of moves that can be carried
  out is one;
* `Run.invariant` — what holds at first and is kept by every step holds of every run;
* `emissions`, `Returned` — what a task hands to its transport, and what it ends with.
-/

namespace ShortMessage.Transaction

/-- One step of a run. -/
structure Transition (σ μ ε : Type) where
  before : σ
  move : μ
  /-- What others saw of the step. -/
  events : List ε
  after : σ

section

variable {σ μ ε : Type} {step? : σ → μ → Option (σ × List ε)} {s t u : σ}
  {h k : List (Transition σ μ ε)}

/-- The steps `h` lead from `s` to `t`. -/
inductive Run (step? : σ → μ → Option (σ × List ε)) (s : σ) :
    List (Transition σ μ ε) → σ → Prop where
  | rest : Run step? s [] s
  | step {h : List (Transition σ μ ε)} {t u : σ} {move : μ} {events : List ε} :
      Run step? s h t → step? t move = some (u, events) →
      Run step? s (h ++ [⟨t, move, events, u⟩]) u

theorem Run.append (hs : Run step? s h t) (ht : Run step? t k u) : Run step? s (h ++ k) u := by
  induction ht with
  | rest => simpa using hs
  | step _ hstep ih =>
    rw [← List.append_assoc]
    exact .step ih hstep

/-- A run is cut at any of its steps. -/
theorem Run.split {tr : Transition σ μ ε} (hrun : Run step? s (h ++ tr :: k) u) :
    Run step? s h tr.before ∧ step? tr.before tr.move = some (tr.after, tr.events) ∧
      Run step? tr.after k u := by
  generalize hl : h ++ tr :: k = l at hrun
  induction hrun generalizing k with
  | rest => simp at hl
  | step hr hs ih =>
    obtain rfl | ⟨k, x, rfl⟩ := List.eq_nil_or_concat k
    · obtain ⟨rfl, heq⟩ := List.append_inj' hl rfl
      cases heq
      exact ⟨hr, hs, .rest⟩
    · rw [List.concat_eq_append, ← List.cons_append, ← List.append_assoc] at hl
      obtain ⟨rfl, heq⟩ := List.append_inj' hl rfl
      cases heq
      obtain ⟨hfront, htr, hback⟩ := ih rfl
      exact ⟨hfront, htr, by simpa using Run.step hback hs⟩

/-- What holds at first and is kept by every step that may be taken holds of every run of such
steps. -/
theorem Run.invariant {Inv : List (Transition σ μ ε) → σ → Prop}
    {Allowed : Transition σ μ ε → Prop} (hrun : Run step? s h t)
    (hallowed : ∀ tr ∈ h, Allowed tr) (hinit : Inv [] s)
    (hstep : ∀ {h t u move events}, Inv h t → step? t move = some (u, events) →
      Allowed ⟨t, move, events, u⟩ → Inv (h ++ [⟨t, move, events, u⟩]) u) : Inv h t := by
  induction hrun with
  | rest => exact hinit
  | step _ hs ih =>
    refine hstep (ih fun tr htr => hallowed tr ?_) hs (hallowed _ ?_)
    · exact List.mem_append_left _ htr
    · exact List.mem_append_right _ (List.mem_singleton.2 rfl)

/-- Carries out moves one after the other, as long as they are possible. -/
def replay (step? : σ → μ → Option (σ × List ε)) :
    σ → List μ → Option (List (Transition σ μ ε) × σ)
  | s, [] => some ([], s)
  | s, move :: moves =>
    match step? s move with
    | none => none
    | some (t, events) => (replay step? t moves).map fun (h, u) => (⟨s, move, events, t⟩ :: h, u)

theorem run_of_replay {moves : List μ} (hr : replay step? s moves = some (h, t)) :
    Run step? s h t := by
  induction moves generalizing s h with
  | nil => cases hr; exact .rest
  | cons move moves ih =>
    rw [replay] at hr
    split at hr
    · cases hr
    · rename_i t' events hs
      obtain ⟨⟨k, u⟩, hk, heq⟩ := Option.map_eq_some_iff.1 hr
      cases heq
      exact Run.append (.step .rest hs) (ih hk)

theorem moves_of_replay {moves : List μ} (hr : replay step? s moves = some (h, t)) :
    h.map (·.move) = moves := by
  induction moves generalizing s h with
  | nil =>
    cases hr
    rfl
  | cons move moves ih =>
    rw [replay] at hr
    split at hr
    · cases hr
    · obtain ⟨⟨k, u⟩, hk, heq⟩ := Option.map_eq_some_iff.1 hr
      cases heq
      rw [List.map_cons, ih hk]

/-- Moves that can be carried out are a run, and what is checked of its end holds. -/
theorem exists_run_of_replay {moves : List μ} {check : List (Transition σ μ ε) × σ → Bool}
    (hc : (replay step? s moves).any check = true) :
    ∃ h t, replay step? s moves = some (h, t) ∧ Run step? s h t ∧ check (h, t) = true := by
  obtain ⟨⟨h, t⟩, hr, hc⟩ := (Option.any_eq_true _ _).1 hc
  exact ⟨h, t, hr, run_of_replay hr, hc⟩

end

/-! ## What tasks do -/

/-- The task that a move is about. -/
def actor? {ι : Type} : Move ι → Option TaskId
  | .run id | .sent id _ | .answered id _ _ | .expire id | .abort id => some id
  | .start _ | .elapse _ => none

namespace Event

variable {π ρ : Type}

/-- What a task hands to its transport in an event. -/
def emittedBy? (id : TaskId) : Event π ρ → Option π
  | .emitted j m => if j = id then some m else none
  | _ => none

/-- What a task ends with in an event. -/
def returnedBy? (id : TaskId) : Event π ρ → Option ρ
  | .returned j result => if j = id then some result else none
  | _ => none

/-- The task that does what is seen. -/
def task : Event π ρ → TaskId
  | .emitted id _ | .called id _ | .returned id _ => id

/-- What other tasks do emits nothing for this one. -/
theorem emittedBy?_eq_nil {events : List (Event π ρ)} {id : TaskId}
    (h : ∀ ev ∈ events, ev.task ≠ id) : events.filterMap (·.emittedBy? id) = [] := by
  refine List.filterMap_eq_nil_iff.2 fun ev hev => ?_
  have hne := h ev hev
  cases ev with
  | emitted j m => exact if_neg hne
  | called j call => rfl
  | returned j result => rfl

end Event

/-! ## What a history says -/

section

variable {σ μ ι π ρ ε α : Type}

/-- All that a task hands to its transport. -/
def emissions (h : List (Transition σ μ (Event π ρ))) (id : TaskId) : List π :=
  h.flatMap fun tr => tr.events.filterMap (·.emittedBy? id)

/-- All that a task ends with. -/
def results (h : List (Transition σ μ (Event π ρ))) (id : TaskId) : List ρ :=
  h.flatMap fun tr => tr.events.filterMap (·.returnedBy? id)

/-- A task ends with a result, when the state is as in a step. -/
def Returned (h : List (Transition σ μ (Event π ρ))) (id : TaskId) (s : σ) (result : ρ) : Prop :=
  ∃ tr ∈ h, tr.before = s ∧ .returned id result ∈ tr.events

/-- The input that a task was started for, if a state knows how many tasks were started before. -/
def input? (started : σ → Nat) (h : List (Transition σ (Move ι) ε)) (id : TaskId) : Option ι :=
  h.findSome? fun tr =>
    match tr.move with
    | .start input => if started tr.before = id then some input else none
    | _ => none

theorem emissions_append (h k : List (Transition σ μ (Event π ρ))) (id : TaskId) :
    emissions (h ++ k) id = emissions h id ++ emissions k id := List.flatMap_append

theorem emissions_cons (tr : Transition σ μ (Event π ρ)) (h : List (Transition σ μ (Event π ρ)))
    (id : TaskId) :
    emissions (tr :: h) id = tr.events.filterMap (·.emittedBy? id) ++ emissions h id :=
  List.flatMap_cons

theorem emissions_snoc {h : List (Transition σ μ (Event π ρ))} {tr : Transition σ μ (Event π ρ)}
    {id : TaskId} :
    emissions (h ++ [tr]) id = emissions h id ++ tr.events.filterMap (·.emittedBy? id) := by
  simp [emissions]

theorem results_snoc {h : List (Transition σ μ (Event π ρ))} {tr : Transition σ μ (Event π ρ)}
    {id : TaskId} :
    results (h ++ [tr]) id = results h id ++ tr.events.filterMap (·.returnedBy? id) := by
  simp [results]

theorem mem_results {h : List (Transition σ μ (Event π ρ))} {id : TaskId} {result : ρ} :
    result ∈ results h id ↔ ∃ tr ∈ h, .returned id result ∈ tr.events := by
  unfold results
  simp only [List.mem_flatMap, List.mem_filterMap]
  constructor
  · rintro ⟨tr, htr, ev, hev, hret⟩
    cases ev with
    | returned j r =>
      obtain ⟨rfl, rfl⟩ : j = id ∧ r = result := by simpa [Event.returnedBy?] using hret
      exact ⟨tr, htr, hev⟩
    | emitted | called => cases hret
  · rintro ⟨tr, htr, hev⟩
    exact ⟨tr, htr, _, hev, if_pos rfl⟩

theorem filterMap_snoc {h : List α} {x : α} {β : Type} (f : α → Option β) :
    (h ++ [x]).filterMap f = h.filterMap f ++ (f x).toList := by
  rw [List.filterMap_append]
  cases hx : f x <;> simp [hx]

/-- A result was returned before the last step, or is in it. -/
theorem returned_snoc {h : List (Transition σ μ (Event π ρ))} {tr : Transition σ μ (Event π ρ)}
    {id : TaskId} {s : σ} {result : ρ} : Returned (h ++ [tr]) id s result ↔
      Returned h id s result ∨ (tr.before = s ∧ .returned id result ∈ tr.events) := by
  unfold Returned
  constructor
  · rintro ⟨x, hx, hs⟩
    rcases List.mem_append.1 hx with hx | hx
    · exact .inl ⟨x, hx, hs⟩
    · obtain rfl := List.mem_singleton.1 hx
      exact .inr hs
  · rintro (⟨x, hx, hs⟩ | hs)
    · exact ⟨x, List.mem_append_left _ hx, hs⟩
    · exact ⟨tr, List.mem_append_right _ (List.mem_singleton.2 rfl), hs⟩

variable {started : σ → Nat} {h : List (Transition σ (Move ι) ε)} {tr : Transition σ (Move ι) ε}
  {id : TaskId} {input : ι}

theorem input?_snoc : input? started (h ++ [tr]) id =
    (input? started h id).or (input? started [tr] id) := by
  simp [input?, List.findSome?_append]

/-- The input that a task was started for is never another one. -/
theorem input?_snoc_of_some (hi : input? started h id = some input) :
    input? started (h ++ [tr]) id = some input := by
  rw [input?_snoc, hi]
  rfl

theorem input?_snoc_of_start (hi : input? started h id = none) (hmove : tr.move = .start input)
    (hid : started tr.before = id) : input? started (h ++ [tr]) id = some input := by
  rw [input?_snoc, hi]
  simp [input?, hmove, hid]

/-- A step that does not start a task says nothing of its input. -/
theorem input?_snoc_of_ne (hmove : ∀ input, tr.move = .start input → started tr.before ≠ id) :
    input? started (h ++ [tr]) id = input? started h id := by
  rw [input?_snoc]
  have : input? started [tr] id = none := by
    unfold input?
    rw [List.findSome?_eq_none_iff]
    intro x hx
    obtain rfl := List.mem_singleton.1 hx
    split
    · rename_i hm
      exact if_neg (hmove _ hm)
    · rfl
  rw [this, Option.or_none]

end

end ShortMessage.Transaction
