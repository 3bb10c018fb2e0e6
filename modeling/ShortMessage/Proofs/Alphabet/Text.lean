import ShortMessage.Alphabet.Text
import ShortMessage.Proofs.Codec.Reads

/-!
# Text and units

What is written of a text is read as the same text (`textOf_unitsOf`).  The other way round units
need not come back as they were, since reading accepts every list of them; but the text that they
are read as can always be written, and never takes more units (`exists_unitsOf_textOf`).
-/

namespace ShortMessage.Alphabet

variable {c : Char} {cs : List Char} {units : List UInt8} {u : UInt8}

/-! ## One character -/

theorem codeOf?_eq_escaped (h : codeOf? c = some (.escaped u)) :
    u &&& 0x7F = u ∧ u ≠ escape ∧ escapedChar u = c := by
  have hall : ∀ p ∈ extension, p.1 &&& 0x7F = p.1 ∧ p.1 ≠ escape ∧ escapedChar p.1 = p.2 := by
    decide
  unfold codeOf? at h
  split at h
  · rename_i p hfind
    cases h
    have hc : p = c := by simpa using List.find?_some hfind
    subst hc
    exact hall _ (List.mem_of_find?_eq_some hfind)
  · split at h
    · split at h <;> cases h
    · cases h

theorem codeOf?_eq_single (h : codeOf? c = some (.single u)) :
    u &&& 0x7F = u ∧ u ≠ escape ∧ basicChar u = c := by
  have hall : ∀ i < 128, UInt8.ofNat i &&& 0x7F = UInt8.ofNat i ∧
      (UInt8.ofNat i = escape → i = escape.toNat) ∧
      basicChar (UInt8.ofNat i) = basic.getD i ' ' := by
    decide +kernel
  unfold codeOf? at h
  split at h
  · cases h
  · split at h
    · rename_i i hfind
      split at h
      · cases h
      · rename_i hne
        cases h
        obtain ⟨hlt, hc, -⟩ := List.findIdx?_eq_some_iff_getElem.1 hfind
        obtain ⟨hmask, hescape, hbasic⟩ := hall i hlt
        refine ⟨hmask, fun he => hne (hescape he), ?_⟩
        rw [hbasic, List.getD_eq_getElem?_getD, List.getElem?_eq_getElem hlt]
        simpa using hc
    · cases h

theorem toNat_masked_lt (u : UInt8) : (u &&& 0x7F).toNat < 128 := by
  have hle : (u &&& 0x7F).toNat ≤ 127 := UInt8.toNat_and u 0x7F ▸ Nat.and_le_right
  omega

/-- What a unit on its own is read as is written as that unit. -/
theorem codeOf?_basicChar (hu : u &&& 0x7F ≠ escape) :
    codeOf? (basicChar (u &&& 0x7F)) = some (.single (u &&& 0x7F)) := by
  have hall : ∀ i < 128, UInt8.ofNat i ≠ escape →
      codeOf? (basicChar (UInt8.ofNat i)) = some (.single (UInt8.ofNat i)) := by
    decide +kernel
  have hunit := hall _ (toNat_masked_lt u)
  rw [UInt8.ofNat_toNat] at hunit
  exact hunit hu

/-- What a unit behind an escape is read as takes no more than the two of them. -/
theorem codeOf?_escapedChar (u : UInt8) :
    ∃ code, codeOf? (escapedChar (u &&& 0x7F)) = some code ∧ code.units.length ≤ 2 := by
  have hall : ∀ i < 128,
      (codeOf? (escapedChar (UInt8.ofNat i))).any (·.units.length ≤ 2) = true := by
    decide +kernel
  have hunit := hall _ (toNat_masked_lt u)
  rw [UInt8.ofNat_toNat] at hunit
  obtain ⟨code, hcode, hlength⟩ := (Option.any_eq_true _ _).1 hunit
  exact ⟨code, hcode, of_decide_eq_true hlength⟩

/-! ## Whole texts -/

theorem unitsOf_cons_eq_ok : unitsOf (c :: cs) = .ok units ↔
    ∃ code us, codeOf? c = some code ∧ unitsOf cs = .ok us ∧ units = code.units ++ us := by
  rw [unitsOf]
  cases hc : codeOf? c with
  | none => simp
  | some code =>
    simp only [bind_eq_ok, Option.some.injEq, exists_eq_left', exists_and_left]
    constructor
    · rintro ⟨us, hus, h⟩
      cases h
      exact ⟨us, hus, rfl⟩
    · rintro ⟨us, hus, rfl⟩
      exact ⟨us, hus, rfl⟩

theorem unitCount_eq (cs : List Char) : unitCount cs = (unitsOf cs).map List.length := by
  induction cs with
  | nil => rfl
  | cons c cs ih =>
    rw [unitCount, unitsOf, charUnits?]
    cases codeOf? c with
    | none => rfl
    | some code =>
      dsimp only [Option.map_some]
      rw [ih]
      cases unitsOf cs with
      | error fault => rfl
      | ok us => exact congrArg Except.ok List.length_append.symm

/-- What is written of a text is read as the same text. -/
theorem textOf_unitsOf (h : unitsOf cs = .ok units) : textOf units = cs := by
  induction cs generalizing units with
  | nil => cases h; rfl
  | cons c cs ih =>
    obtain ⟨code, us, hcode, hus, rfl⟩ := unitsOf_cons_eq_ok.1 h
    cases code with
    | single u =>
      obtain ⟨hmask, hne, hchar⟩ := codeOf?_eq_single hcode
      rw [Code.units, List.singleton_append, textOf_basic_cons (by rwa [hmask]), hmask, hchar,
        ih hus]
    | escaped u =>
      obtain ⟨hmask, -, hchar⟩ := codeOf?_eq_escaped hcode
      rw [Code.units, List.cons_append, List.singleton_append, textOf_escape_cons (by decide),
        hmask, hchar, ih hus]

/-- Whatever units are read as can be written, in no more units. -/
theorem exists_unitsOf_textOf (units : List UInt8) :
    ∃ us, unitsOf (textOf units) = .ok us ∧ us.length ≤ units.length := by
  match units with
  | [] => exact ⟨[], rfl, Nat.le_refl _⟩
  | [u] =>
    by_cases hu : u &&& 0x7F = escape
    · rw [textOf_escape_nil hu]
      exact ⟨[0x20], rfl, Nat.le_refl _⟩
    · rw [textOf_basic_cons hu]
      exact ⟨_, unitsOf_cons_eq_ok.2 ⟨_, [], codeOf?_basicChar hu, rfl, rfl⟩, Nat.le_refl _⟩
  | u :: v :: rest =>
    by_cases hu : u &&& 0x7F = escape
    · rw [textOf_escape_cons hu]
      obtain ⟨code, hcode, hlength⟩ := codeOf?_escapedChar v
      obtain ⟨us, hus, hle⟩ := exists_unitsOf_textOf rest
      refine ⟨_, unitsOf_cons_eq_ok.2 ⟨code, us, hcode, hus, rfl⟩, ?_⟩
      rw [List.length_append, List.length_cons, List.length_cons]
      omega
    · rw [textOf_basic_cons hu]
      obtain ⟨us, hus, hle⟩ := exists_unitsOf_textOf (v :: rest)
      exact ⟨_, unitsOf_cons_eq_ok.2 ⟨_, us, codeOf?_basicChar hu, hus, rfl⟩,
        Nat.succ_le_succ hle⟩

end ShortMessage.Alphabet
