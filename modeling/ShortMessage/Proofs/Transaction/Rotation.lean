import ShortMessage.Proofs.Transaction.Operations

/-!
# Slots take turns

An identifier that was in use a moment ago should not be in use for something else: an answer that
comes late would go astray.  Therefore a search does not begin at the first slot but behind the one
that was leased last.

* `lease?_eq_some` — a search ends at the first idle slot at or after the cursor, and the cursor
  moves behind it; `Step.cursor_eq_or`: nothing else moves the cursor;
* `Swept` — after a search leased a slot, all from there up to the cursor have had their turn: they
  were leased, or a search found them held;
* `takesTurns_of_run` — hence a slot is leased again only after all others have had their turn.
  Slots that are asked for by their index move no cursor, so they neither count nor disturb.
-/

namespace ShortMessage.Transaction.Table

variable {ε κ : Type}

/-! ## A search -/

/-- The slot that a search looks at after so many others. -/
def probe (t : Table ε κ) (offset : Nat) : Nat := (t.cursor + offset) % t.slots.length

/-- A slot is idle, and the first such at or after the cursor. -/
def FirstIdle (t : Table ε κ) (index : Nat) : Prop :=
  ∃ offset < t.slots.length, t.probe offset = index ∧ t.isIdle index = true ∧
    ∀ k < offset, t.isHeld (t.probe k) = true

/-- A search comes to a slot, and this one and all before it are held. -/
def PassesOver (t : Table ε κ) (index : Nat) : Prop :=
  ∃ offset < t.slots.length, t.probe offset = index ∧ ∀ k ≤ offset, t.isHeld (t.probe k) = true

theorem isHeld_of_isIdle_eq_false {t : Table ε κ} {i : Nat} (hi : i < t.slots.length)
    (h : t.isIdle i = false) : t.isHeld i = true := by
  by_contra hheld
  have hnone := isHeld_eq_false_iff.1 (Bool.not_eq_true _ ▸ hheld)
  rw [isIdle_of_holder? hi hnone] at h
  cases h

/-- A search never leaves the table. -/
theorem probe_lt {t : Table ε κ} (h : 0 < t.slots.length) (k : Nat) :
    t.probe k < t.slots.length := Nat.mod_lt _ h

/-- A search that succeeds takes the first idle slot, and the next one starts behind it. -/
theorem lease?_eq_some {t t' : Table ε κ} {key : κ} {l : Lease}
    (h : t.lease? key = some (l, t')) :
    t.FirstIdle l.index ∧ t'.cursor = (l.index + 1) % t.slots.length := by
  unfold lease? searchOrder at h
  obtain ⟨i, hfind, hocc⟩ := Option.map_eq_some_iff.1 h
  cases hocc
  rw [List.find?_map] at hfind
  obtain ⟨offset, hoffset, rfl⟩ := Option.map_eq_some_iff.1 hfind
  obtain ⟨hidle, hlt, hbefore⟩ := List.find?_range_eq_some.1 hoffset
  have hlt : offset < t.slots.length := List.mem_range.1 hlt
  refine ⟨⟨offset, hlt, rfl, hidle, fun k hk => ?_⟩, rfl⟩
  exact isHeld_of_isIdle_eq_false (probe_lt (by omega) k) (by simpa [probe] using hbefore k hk)

/-- A search fails only when it has seen every slot held. -/
theorem lease?_eq_none_iff_isIdle {t : Table ε κ} {key : κ} :
    t.lease? key = none ↔ ∀ i, t.isIdle i = false := by
  rw [lease?_eq_none_iff]
  constructor
  · intro h i
    rcases hi : t.isIdle i with _ | _
    · rfl
    · have hheld := h i (isIdle_lt hi)
      rw [holder?_of_isIdle hi] at hheld
      cases hheld
  · intro h i hi
    exact isHeld_iff.1 (isHeld_of_isIdle_eq_false hi (h i))

/-! ## The cursor -/

theorem cursor_postIf {t t' : Table ε κ} {i : Nat} {event : ε} {accepts : κ → ε → Bool}
    (h : t.postIf i event accepts = .ok t') : t'.cursor = t.cursor := by
  obtain ⟨holder, m, -, -, -, -, rfl⟩ := postIf_eq_ok h
  rfl

theorem cursor_take? {t t' : Table ε κ} {l : Lease} {event : ε}
    (h : t.take? l = some (event, t')) : t'.cursor = t.cursor := by
  obtain ⟨m, rest, -, -, rfl⟩ := take?_eq_some h
  rfl

theorem cursor_release (t : Table ε κ) (l : Lease) : (t.release l).cursor = t.cursor := by
  unfold release
  split <;> rfl

theorem cursor_retire (t : Table ε κ) (l : Lease) : (t.retire l).2.cursor = t.cursor := by
  unfold retire
  split
  · rename_i event t' ht
    rw [cursor_release, cursor_take? ht]
  · rw [cursor_release]

/-- Only a search that finds a slot moves the cursor. -/
theorem Step.cursor_eq_or {t t' : Table ε κ} {operation : Operation ε κ} {outcome : Outcome ε}
    (h : Step t operation t' outcome) : t'.cursor = t.cursor ∨
      ∃ key l, operation = .lease key ∧ outcome = .leased l ∧ t.lease? key = some (l, t') := by
  cases h with
  | leased h => exact .inr ⟨_, _, rfl, rfl, h⟩
  | leasedAt h =>
    obtain ⟨-, h⟩ := Option.ite_none_right_eq_some.1 h
    cases h
    exact .inl rfl
  | posted h => exact .inl (cursor_postIf h)
  | received h => exact .inl (cursor_take? h)
  | retired => exact .inl (cursor_retire t _)
  | dropped => exact .inl (cursor_release t _)
  | full | occupied | turnedAway | empty => exact .inl rfl

/-! ## Turns -/

/-- A search leases this slot. -/
def Claims (tr : Entry ε κ) (index : Nat) : Prop :=
  ∃ key l, tr.move = .lease key ∧ tr.events = [.leased l] ∧ l.index = index

/-- A search finds this slot held. -/
def FindsHeld (tr : Entry ε κ) (index : Nat) : Prop :=
  (∃ key, tr.move = .lease key) ∧ tr.before.PassesOver index

/-- After the slot `i` was leased, those between it and the cursor have had their turn. -/
def Swept (i : Nat) (h : List (Entry ε κ)) (t : Table ε κ) : Prop :=
  ∃ d, t.cursor = (i + 1 + d) % t.slots.length ∧
    ∀ k < d, ∃ tr ∈ h, Claims tr ((i + 1 + k) % t.slots.length) ∨
      FindsHeld tr ((i + 1 + k) % t.slots.length)

theorem probe_of_cursor {t : Table ε κ} {start : Nat} (h : t.cursor = start % t.slots.length)
    (k : Nat) : t.probe k = (start + k) % t.slots.length := by
  rw [probe, h, Nat.mod_add_mod]

/-- A slot is passed by the cursor only when a search leases it or finds it held. -/
theorem Swept.snoc {i : Nat} {h : List (Entry ε κ)} {t t' : Table ε κ}
    {operation : Operation ε κ} {outcome : Outcome ε} (hs : Swept i h t)
    (hstep : Step t operation t' outcome) :
    Swept i (h ++ [⟨t, operation, [outcome], t'⟩]) t' := by
  obtain ⟨d, hcursor, hturn⟩ := hs
  unfold Swept
  rw [hstep.length_eq]
  obtain heq | ⟨key, l, rfl, rfl, hlease⟩ := hstep.cursor_eq_or
  · refine ⟨d, heq.trans hcursor, fun k hk => ?_⟩
    obtain ⟨tr, htr, hhad⟩ := hturn k hk
    exact ⟨tr, List.mem_append_left _ htr, hhad⟩
  · obtain ⟨⟨offset, hoffset, hl, -, hheld⟩, hcursor'⟩ := lease?_eq_some hlease
    have hl : (i + 1 + (d + offset)) % t.slots.length = l.index := by
      rw [← Nat.add_assoc, ← probe_of_cursor hcursor, hl]
    refine ⟨d + offset + 1, ?_, fun k hk => ?_⟩
    · rw [hcursor', ← hl, Nat.mod_add_mod]
      rfl
    · rcases Nat.lt_trichotomy k (d + offset) with hlt | rfl | hgt
      · rcases Nat.lt_or_ge k d with hkd | hkd
        · obtain ⟨tr, htr, hhad⟩ := hturn k hkd
          exact ⟨tr, List.mem_append_left _ htr, hhad⟩
        · -- the search itself passed over what lay between the cursor and the slot it leased
          refine ⟨_, List.mem_append_right _ (List.mem_singleton.2 rfl), .inr ⟨⟨key, rfl⟩, ?_⟩⟩
          refine ⟨k - d, by dsimp only; omega, ?_, fun k' hk' => hheld k' (by omega)⟩
          rw [probe_of_cursor hcursor, Nat.add_assoc _ d, Nat.add_sub_cancel' hkd]
      · exact ⟨_, List.mem_append_right _ (List.mem_singleton.2 rfl),
          .inl ⟨key, l, rfl, rfl, hl.symm⟩⟩
      · omega

theorem Swept.append {i : Nat} {h k : List (Entry ε κ)} {t u : Table ε κ} (hs : Swept i h t)
    (hrun : Run operate? t k u) : Swept i (h ++ k) u := by
  induction hrun with
  | rest => simpa using hs
  | step _ hs' ih =>
    obtain ⟨outcome, rfl, hstep⟩ := step_of_operate? hs'
    rw [← List.append_assoc]
    exact ih.snoc hstep

/-- All slots but one lie before it on the way around. -/
theorem exists_ahead {n i j : Nat} (hi : i < n) (hj : j < n) (hne : j ≠ i) :
    ∃ k, k + 1 < n ∧ (i + 1 + k) % n = j := by
  rcases Nat.lt_or_gt_of_ne hne with hlt | hgt
  · refine ⟨j + n - (i + 1), by omega, ?_⟩
    rw [Nat.add_sub_cancel' (by omega), Nat.add_mod_right, Nat.mod_eq_of_lt hj]
  · refine ⟨j - (i + 1), by omega, ?_⟩
    rw [Nat.add_sub_cancel' hgt, Nat.mod_eq_of_lt hj]

/-- It takes the whole way around to come back. -/
theorem le_of_around {n i k : Nat} (hi : i < n) (h : (i + 1 + k) % n = i) : n ≤ k + 1 := by
  by_contra hlt
  rcases Nat.lt_or_ge (i + 1 + k) n with hbelow | hwrap
  · rw [Nat.mod_eq_of_lt hbelow] at h
    omega
  · rw [Nat.mod_eq_sub_mod hwrap, Nat.mod_eq_of_lt (by omega)] at h
    omega

/-- A search that comes back to a slot has left no other out. -/
theorem Swept.of_firstIdle {i j : Nat} {h : List (Entry ε κ)} {t : Table ε κ} (hs : Swept i h t)
    (hi : t.FirstIdle i) (hj : j < t.slots.length) (hne : j ≠ i) :
    (∃ tr ∈ h, Claims tr j ∨ FindsHeld tr j) ∨ t.PassesOver j := by
  obtain ⟨d, hcursor, hturn⟩ := hs
  obtain ⟨offset, hoffset, hprobe, hidle, hheld⟩ := hi
  rw [probe_of_cursor hcursor, Nat.add_assoc] at hprobe
  have haround : t.slots.length ≤ d + offset + 1 := le_of_around (isIdle_lt hidle) hprobe
  obtain ⟨k, hk, rfl⟩ := exists_ahead (isIdle_lt hidle) hj hne
  rcases Nat.lt_or_ge k d with hkd | hkd
  · exact .inl (hturn k hkd)
  · refine .inr ⟨k - d, by omega, ?_, fun k' hk' => hheld k' (by omega)⟩
    rw [probe_of_cursor hcursor, Nat.add_assoc _ d, Nat.add_sub_cancel' hkd]

/-! ## Runs -/

theorem length_of_run {capacity cursor : Nat} {h : List (Entry ε κ)} {t : Table ε κ}
    (hrun : Run operate? (idle capacity cursor) h t) : t.slots.length = capacity := by
  induction hrun with
  | rest => exact List.length_replicate
  | step _ hs ih =>
    obtain ⟨_, _, hstep⟩ := step_of_operate? hs
    exact hstep.length_eq.trans ih

/-- A slot that is leased in a run was idle, and the cursor then stands behind it. -/
theorem Claims.firstIdle {tr : Entry ε κ} {i : Nat} {s t : Table ε κ} {h : List (Entry ε κ)}
    (hc : Claims tr i) (hrun : Run operate? s h t) (htr : tr ∈ h) :
    tr.before.FirstIdle i ∧ tr.after.cursor = (i + 1) % tr.after.slots.length := by
  obtain ⟨before, move, events, after⟩ := tr
  obtain ⟨key, l, rfl, rfl, rfl⟩ := hc
  obtain ⟨outcome, houtcome, hstep⟩ := step_of_mem hrun htr
  cases houtcome
  dsimp only at hstep ⊢
  rw [hstep.length_eq]
  cases hstep with
  | leased hlease => exact lease?_eq_some hlease

/-- How searches hand out the slots of a table. -/
structure TakesTurns (capacity : Nat) (h : List (Entry ε κ)) : Prop where
  /-- If any slot is idle, the first such at or after the cursor is leased. -/
  first : ∀ {tr key}, tr ∈ h → tr.move = .lease key → (∃ i, tr.before.isIdle i = true) →
    ∃ l, tr.events = [.leased l] ∧ tr.before.FirstIdle l.index
  /-- A search is in vain exactly when no slot is idle. -/
  full : ∀ {tr key}, tr ∈ h → tr.move = .lease key →
    (tr.events = [.refused] ↔ ∀ i, tr.before.isIdle i = false)
  /-- A search in vain changes nothing. -/
  unchanged : ∀ {tr key}, tr ∈ h → tr.move = .lease key → tr.events = [.refused] →
    tr.after = tr.before
  /-- From one lease of a slot to the next, all others are leased or found held.  The search that
  leads to the next is one of those that may find them held. -/
  late : ∀ {front a middle b back i j}, h = front ++ a :: (middle ++ b :: back) →
    Claims a i → Claims b i → j < capacity → j ≠ i →
    (∃ tr ∈ middle, Claims tr j) ∨ ∃ tr ∈ middle ++ [b], FindsHeld tr j

/-- Searches lease the slots in turn, whatever else is done with the table. -/
theorem takesTurns_of_run {capacity cursor : Nat} {h : List (Entry ε κ)} {t : Table ε κ}
    (hrun : Run operate? (idle capacity cursor) h t) : TakesTurns capacity h where
  first := by
    rintro ⟨before, move, events, after⟩ key htr rfl ⟨i, hi⟩
    obtain ⟨outcome, rfl, hstep⟩ := step_of_mem hrun htr
    cases hstep with
    | leased hlease => exact ⟨_, rfl, (lease?_eq_some hlease).1⟩
    | full hfull =>
      rw [lease?_eq_none_iff_isIdle.1 hfull i] at hi
      cases hi
  full := by
    rintro ⟨before, move, events, after⟩ key htr rfl
    obtain ⟨outcome, rfl, hstep⟩ := step_of_mem hrun htr
    cases hstep with
    | leased hlease =>
      refine ⟨(nomatch ·), fun h => ?_⟩
      rw [lease?_eq_none_iff_isIdle.2 h] at hlease
      cases hlease
    | full hfull => exact ⟨fun _ => lease?_eq_none_iff_isIdle.1 hfull, fun _ => rfl⟩
  unchanged := by
    rintro ⟨before, move, events, after⟩ key htr rfl rfl
    obtain ⟨outcome, houtcome, hstep⟩ := step_of_mem hrun htr
    cases houtcome
    cases hstep
    rfl
  late := by
    rintro front a middle b back i j rfl ha hb hj hne
    obtain ⟨-, hcursor⟩ := ha.firstIdle hrun (by simp)
    obtain ⟨hidle, -⟩ := hb.firstIdle hrun (by simp)
    obtain ⟨-, -, hafter⟩ := hrun.split
    obtain ⟨hmiddle, -, -⟩ := hafter.split
    have hlength : b.before.slots.length = capacity := by
      rw [List.append_cons front a, ← List.append_assoc] at hrun
      exact length_of_run hrun.split.1
    have hstart : Swept i [] a.after := ⟨0, hcursor, fun k hk => absurd hk (Nat.not_lt_zero k)⟩
    rcases (hstart.append hmiddle).of_firstIdle hidle (hlength ▸ hj) hne with
      ⟨tr, htr, hclaims | hfinds⟩ | hpasses
    · exact .inl ⟨tr, htr, hclaims⟩
    · exact .inr ⟨tr, List.mem_append_left _ htr, hfinds⟩
    · obtain ⟨key, l, hmove, -, -⟩ := hb
      exact .inr ⟨b, List.mem_append_right _ (List.mem_singleton.2 rfl), ⟨key, hmove⟩, hpasses⟩

/-- Slot 2 is leased three times: first the others are leased in between, then they are held. -/
def thriceLeased : List (Operation Nat Unit) :=
  [.lease (), .lease (), .drop ⟨0, 2⟩, .lease (), .lease (), .lease (), .drop ⟨3, 2⟩, .lease ()]

theorem takesTurns_thriceLeased : ∃ h t,
    replay operate? (idle 3 5) thriceLeased = some (h, t) ∧ TakesTurns 3 h ∧
      h.flatMap (·.events) = [.leased ⟨0, 2⟩, .leased ⟨1, 0⟩, .nothing, .leased ⟨2, 1⟩,
        .leased ⟨3, 2⟩, .refused, .nothing, .leased ⟨4, 2⟩] := by
  have hall : (replay operate? (idle 3 5) thriceLeased).any (fun r =>
      r.1.flatMap (·.events) == [.leased ⟨0, 2⟩, .leased ⟨1, 0⟩, .nothing, .leased ⟨2, 1⟩,
        .leased ⟨3, 2⟩, .refused, .nothing, .leased ⟨4, 2⟩]) = true := by
    decide +kernel
  obtain ⟨h, t, hr, hrun, hc⟩ := exists_run_of_replay hall
  exact ⟨h, t, hr, takesTurns_of_run hrun, beq_iff_eq.1 hc⟩

end ShortMessage.Transaction.Table
