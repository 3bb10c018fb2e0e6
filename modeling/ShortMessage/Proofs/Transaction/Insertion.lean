import Mathlib.Order.Monotone.Basic
import ShortMessage.Proofs.Transaction.Renumbering

/-!
# Calls put into a run

A `Call` starts a task, and nothing but the task takes steps.  `Padded` says that one run is another
one with calls put in, each of them over before the run goes on, and which number each task has then.

`Mirrors` is what an entity must provide for calls that leave no trace in its state: the same steps
are possible before and after such a call, but for numbers.  Then the two runs look the same in every
task, and will go on to do so (`Mirrors.unnoticed`).
-/

namespace ShortMessage.Transaction

section

variable {σ ι π ρ : Type}

/-- A task is started, and nothing but the task takes steps. -/
structure Call (step? : σ → Move ι → Option (σ × List (Event π ρ))) (started : σ → Nat) (s : σ)
    (input : ι) (c : List (Transition σ (Move ι) (Event π ρ))) (t : σ) : Prop where
  run : Run step? s c t
  alone : ∃ first rest, c = first :: rest ∧ first.move = .start input ∧
    ∀ tr ∈ rest, actor? tr.move = some (started s)

/-- Other numbers, if one more is given away before those from `n` on. -/
def shift (n : Nat) (number : Nat → Nat) (i : Nat) : Nat :=
  if i < n then number i else number i + 1

/-- The steps `k` are the steps `h` with calls put in, under the numbers that the tasks have then. -/
inductive Padded (step? : σ → Move ι → Option (σ × List (Event π ρ))) (started : σ → Nat)
    (Inserted : σ → List (Transition σ (Move ι) (Event π ρ)) → σ → Prop) (s : σ) :
    List (Transition σ (Move ι) (Event π ρ)) → σ → List (Transition σ (Move ι) (Event π ρ)) → σ →
      (TaskId → TaskId) → Prop where
  | rest : Padded step? started Inserted s [] s [] s id
  | step {h t k u number move t' events u' events'} :
      Padded step? started Inserted s h t k u number → step? t move = some (t', events) →
      step? u (move.renumber number) = some (u', events') →
      Padded step? started Inserted s (h ++ [⟨t, move, events, t'⟩]) t'
        (k ++ [⟨u, move.renumber number, events', u'⟩]) u' number
  | call {h t k u number c u'} : Padded step? started Inserted s h t k u number →
      Inserted u c u' →
      Padded step? started Inserted s h t (k ++ c) u' (shift (started t) number)

end

/-- A call begins where the task is started. -/
theorem Call.start {σ ι π ρ : Type} {step? : σ → Move ι → Option (σ × List (Event π ρ))}
    {started : σ → Nat} {s t : σ} {input : ι} {c : List (Transition σ (Move ι) (Event π ρ))}
    (hc : Call step? started s input c t) : ∃ s' events rest,
      c = ⟨s, .start input, events, s'⟩ :: rest ∧ step? s (.start input) = some (s', events) ∧
        Run step? s' rest t ∧ ∀ tr ∈ rest, actor? tr.move = some (started s) := by
  obtain ⟨⟨before, move, events, after⟩, rest, rfl, hmove, halone⟩ := hc.alone
  obtain ⟨hfirst, hs, hrest⟩ := Run.split (h := []) hc.run
  generalize hnil : ([] : List (Transition σ (Move ι) (Event π ρ))) = front at hfirst
  cases hfirst with
  | rest =>
    simp only at hmove hs hrest
    subst hmove
    exact ⟨after, events, rest, rfl, hs, hrest, halone⟩
  | step => simp at hnil

/-- An input and moves of its task that can be carried out are a call. -/
theorem call_of_replay {σ ι π ρ : Type} {step? : σ → Move ι → Option (σ × List (Event π ρ))}
    {started : σ → Nat} {s t : σ} {input : ι} {moves : List (Move ι)}
    {c : List (Transition σ (Move ι) (Event π ρ))}
    (hr : replay step? s (.start input :: moves) = some (c, t))
    (halone : ∀ move ∈ moves, actor? move = some (started s)) : Call step? started s input c t := by
  obtain ⟨first, rest, rfl, hfirst, hrest⟩ := List.map_eq_cons_iff.1 (moves_of_replay hr)
  refine ⟨run_of_replay hr, first, rest, rfl, hfirst, fun tr htr => halone _ ?_⟩
  exact hrest ▸ List.mem_map_of_mem htr

/-- Every run is one with nothing put in. -/
theorem padded_of_run {σ ι π ρ : Type} {step? : σ → Move ι → Option (σ × List (Event π ρ))}
    {started : σ → Nat} {Inserted : σ → List (Transition σ (Move ι) (Event π ρ)) → σ → Prop}
    {s t : σ} {h : List (Transition σ (Move ι) (Event π ρ))} (hrun : Run step? s h t) :
    Padded step? started Inserted s h t h t id := by
  induction hrun with
  | rest => exact .rest
  | @step h t u move events _ hs ih =>
    have hmove : move.renumber id = move := by cases move <;> rfl
    have hpadded := Padded.step ih hs (hmove.symm ▸ hs)
    rwa [hmove] at hpadded

/-! ## Numbers with gaps -/

/-- Numbers that leave gaps, but none from `n` on. -/
structure Spaced (n : Nat) (number : Nat → Nat) : Prop where
  mono : StrictMono number
  next : ∀ k, number (n + k) = number n + k

namespace Spaced

variable {n m : Nat} {number : Nat → Nat}

theorem id : Spaced n id := ⟨strictMono_id, fun _ => rfl⟩

theorem of_le (hs : Spaced n number) (hle : n ≤ m) : Spaced m number := by
  obtain ⟨d, rfl⟩ := Nat.exists_eq_add_of_le hle
  refine ⟨hs.mono, fun k => ?_⟩
  rw [Nat.add_assoc, hs.next, hs.next, Nat.add_assoc]

theorem succ (hs : Spaced n number) : number (n + 1) = number n + 1 := hs.next 1

theorem shift (hs : Spaced n number) : Spaced n (shift n number) := by
  refine ⟨fun i j hij => ?_, fun k => ?_⟩
  · have hlt := hs.mono hij
    unfold Transaction.shift
    split <;> split <;> omega
  · have hnext := hs.next k
    unfold Transaction.shift
    rw [if_neg (by omega), if_neg (by omega)]
    omega

end Spaced

/-- All tasks are kept, under other numbers. -/
def Numbering.all (number : TaskId → TaskId) (hmono : StrictMono number) : Numbering where
  keeps _ := true
  number := number
  injective _ _ h := hmono.injective h

/-! ## Runs that nobody can tell apart -/

section

variable {σ ι π ρ : Type} {step? : σ → Move ι → Option (σ × List (Event π ρ))} {started clock : σ → Nat}
  {Inserted : σ → List (Transition σ (Move ι) (Event π ρ)) → σ → Prop} {s t u t' : σ}
  {h k : List (Transition σ (Move ι) (Event π ρ))} {number : TaskId → TaskId}
  {Mirror : (TaskId → TaskId) → σ → σ → Prop}

/-- What an entity provides: `Mirror number t u` if `u` is `t` under other numbers, after calls that
left no trace. -/
structure Mirrors (step? : σ → Move ι → Option (σ × List (Event π ρ))) (started clock : σ → Nat)
    (Inserted : σ → List (Transition σ (Move ι) (Event π ρ)) → σ → Prop) (s : σ)
    (Mirror : (TaskId → TaskId) → σ → σ → Prop) : Prop where
  rest : Mirror id s s
  step : ∀ {number t u} (move), Mirror number t u →
    Option.Rel (fun x y => y.2 = x.2.map (Event.renumber number) ∧ Mirror number x.1 y.1)
      (step? t move) (step? u (move.renumber number))
  call : ∀ {number t u k c u'}, Mirror number t u → Run step? s k u → Inserted u c u' →
    Mirror (shift (started t) number) t u'
  /-- What others see of a call is the task that it starts. -/
  alone : ∀ {k u c u'}, Run step? s k u → Inserted u c u' →
    Run step? u c u' ∧ ∀ tr ∈ c, ∀ ev ∈ tr.events, ev.task = started u
  spaced : ∀ {number t u}, Mirror number t u → Spaced (started t) number
  started_eq : ∀ {number t u}, Mirror number t u → started u = number (started t)
  clock_eq : ∀ {number t u}, Mirror number t u → clock u = clock t
  /-- Nothing is seen of a task before it is started. -/
  fresh : ∀ {h t id}, Run step? s h t → started t ≤ id → seen clock h id = []

/-- Nobody can tell the run `h` from the run `k`, in which calls are put in: each task says the same
at the same time and ends with the same, and so it will go on. -/
structure Unnoticed (step? : σ → Move ι → Option (σ × List (Event π ρ))) (started clock : σ → Nat)
    (Inserted : σ → List (Transition σ (Move ι) (Event π ρ)) → σ → Prop) (s : σ)
    (h : List (Transition σ (Move ι) (Event π ρ))) (t : σ)
    (k : List (Transition σ (Move ι) (Event π ρ))) (u : σ) (number : TaskId → TaskId) : Prop where
  run : Run step? s k u
  mono : StrictMono number
  clock_eq : clock u = clock t
  seen : ∀ id, seen clock k (number id) = seen clock h id
  emissions : ∀ id, emissions k (number id) = emissions h id
  results : ∀ id, results k (number id) = results h id
  /-- The same moves are possible, and others see the same of them. -/
  next : ∀ move, Option.Rel (fun x y => y.2 = x.2.map (Event.renumber number))
    (step? t move) (step? u (move.renumber number))
  /-- Whatever follows can follow there too. -/
  later : ∀ {r t'}, Run step? t r t' → ∃ r' u',
    Padded step? started Inserted s (h ++ r) t' (k ++ r') u' number ∧
      r'.map (·.move) = r.map fun tr => tr.move.renumber number

/-- A run with calls put in mirrors the run without them. -/
theorem Mirrors.seen_eq (hm : Mirrors step? started clock Inserted s Mirror)
    (hp : Padded step? started Inserted s h t k u number) :
    Run step? s h t ∧ Run step? s k u ∧ Mirror number t u ∧
      ∀ i, seen clock k (number i) = seen clock h i := by
  induction hp with
  | rest => exact ⟨.rest, .rest, hm.rest, fun _ => rfl⟩
  | @step h t k u number move t' events u' events' _ hs hs' ih =>
    obtain ⟨hplain, hpadded, hmirror, hseen⟩ := ih
    have halike := hm.step move hmirror
    rw [hs, hs'] at halike
    cases halike with
    | some hsame =>
      refine ⟨.step hplain hs, .step hpadded hs', hsame.2, fun i => ?_⟩
      exact seen_snoc_renumber (n := .all _ (hm.spaced hmirror).mono) (fun _ _ => rfl) rfl
        (hm.clock_eq hmirror) hsame.1 (hseen i)
  | @call h t k u number c u' _ hc ih =>
    obtain ⟨hplain, hpadded, hmirror, hseen⟩ := ih
    obtain ⟨hcall, halone⟩ := hm.alone hpadded hc
    have hspaced := hm.spaced hmirror
    have hstarted := hm.started_eq hmirror
    refine ⟨hplain, hpadded.append hcall, hm.call hmirror hpadded hc, fun i => ?_⟩
    have hother {j : TaskId} (hj : j ≠ started u) : seen clock c j = [] :=
      seen_eq_nil fun tr htr ev hev htask => hj (htask ▸ halone tr htr ev hev)
    rw [seen_append]
    by_cases hi : i < started t
    · have hlt : number i < started u := hstarted ▸ hspaced.mono hi
      rw [shift, if_pos hi, hother (Nat.ne_of_lt hlt), hseen i, List.append_nil]
    · -- the task is not there yet, in neither run
      have hle : started t ≤ i := Nat.le_of_not_lt hi
      have hlt : started u < number i + 1 :=
        Nat.lt_succ_of_le (hstarted ▸ hspaced.mono.monotone hle)
      rw [shift, if_neg hi, hother (Nat.ne_of_gt hlt), hm.fresh hpadded (Nat.le_of_lt hlt),
        hm.fresh hplain hle]
      rfl

/-- What follows can follow after calls were put in. -/
theorem Mirrors.later (hm : Mirrors step? started clock Inserted s Mirror)
    (hp : Padded step? started Inserted s h t k u number)
    {r : List (Transition σ (Move ι) (Event π ρ))} (hr : Run step? t r t') : ∃ r' u',
      Padded step? started Inserted s (h ++ r) t' (k ++ r') u' number ∧
        r'.map (·.move) = r.map fun tr => tr.move.renumber number := by
  induction hr with
  | rest => exact ⟨[], u, by simpa using hp, rfl⟩
  | @step r v w move events _ hs ih =>
    obtain ⟨r', v', hpadded, hmoves⟩ := ih
    obtain ⟨-, -, hmirror, -⟩ := hm.seen_eq hpadded
    have halike := hm.step move hmirror
    rw [hs] at halike
    generalize hs' : step? v' (move.renumber number) = there at halike
    cases halike with
    | @some _ y _ =>
      refine ⟨r' ++ [⟨v', move.renumber number, y.2, y.1⟩], y.1, ?_, by simp [hmoves]⟩
      rw [← List.append_assoc, ← List.append_assoc]
      exact .step hpadded hs hs'

/-- Nobody can tell a run from the same run with calls put in. -/
theorem Mirrors.unnoticed (hm : Mirrors step? started clock Inserted s Mirror)
    (hp : Padded step? started Inserted s h t k u number) :
    Unnoticed step? started clock Inserted s h t k u number := by
  obtain ⟨-, hpadded, hmirror, hseen⟩ := hm.seen_eq hp
  refine ⟨hpadded, (hm.spaced hmirror).mono, hm.clock_eq hmirror, hseen,
    fun id => (said_eq_of_seen_eq (hseen id)).1, fun id => (said_eq_of_seen_eq (hseen id)).2,
    fun move => ?_, hm.later hp⟩
  have halike := hm.step move hmirror
  generalize step? t move = here at halike ⊢
  generalize step? u (move.renumber number) = there at halike ⊢
  cases halike with
  | none => exact .none
  | some hsame => exact .some hsame.1

end

end ShortMessage.Transaction
