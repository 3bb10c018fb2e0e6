import ShortMessage.Proofs.Alphabet.Text

/-!
# How texts are spelled

`Spells` says how the two tables write a text, one character after the other, without the functions
that translate.  Translation finds a spelling wherever there is one and stops at the first character
that has none (`unitsOf_eq_ok`, `unitsOf_eq_error`); back from a spelling it finds the text.
Units that are no spelling are read as a text too, whose spelling is their normal form
(`translation_normalises`).
-/

namespace ShortMessage.Alphabet

variable {c : Char} {cs text : List Char} {us units : List UInt8} {fault : Fault}

/-! ## Spellings -/

/-- A character is spelled as its place in the basic table, the place of the escape excepted, or as
an escape and its unit in the extension. -/
inductive SpellsChar : Char → List UInt8 → Prop
  | basic {i : Nat} {c : Char} (hc : basic[i]? = some c) (hi : i ≠ escape.toNat) :
      SpellsChar c [UInt8.ofNat i]
  | extended {u : UInt8} {c : Char} (hu : (u, c) ∈ extension) : SpellsChar c [escape, u]

/-- A text is spelled as its characters are. -/
inductive Spells : List Char → List UInt8 → Prop
  | nil : Spells [] []
  | cons {c : Char} {cs : List Char} {us vs : List UInt8} (hc : SpellsChar c us)
      (hcs : Spells cs vs) : Spells (c :: cs) (us ++ vs)

/-- The first character of a text that has no spelling. -/
def FirstMissing (text : List Char) (c : Char) : Prop :=
  ∃ part rest, text = part ++ c :: rest ∧ (∀ d ∈ part, ∃ us, SpellsChar d us) ∧
    ¬∃ us, SpellsChar c us

/-! ## One character -/

theorem spellsChar_of_codeOf? {code : Code} (h : codeOf? c = some code) :
    SpellsChar c code.units := by
  have hbasic : ∀ i < 128, basic[i]? = some (basicChar (UInt8.ofNat i)) := by
    decide +kernel
  cases code with
  | single u =>
    obtain ⟨hmask, hne, hchar⟩ := codeOf?_eq_single h
    have hlt : u.toNat < 128 := hmask ▸ toNat_masked_lt u
    have hc := hbasic u.toNat hlt
    rw [UInt8.ofNat_toNat, hchar] at hc
    have hspells := SpellsChar.basic hc fun he => hne (UInt8.toNat_inj.1 he)
    rwa [UInt8.ofNat_toNat] at hspells
  | escaped u =>
    refine .extended ?_
    unfold codeOf? at h
    split at h
    · rename_i p hfind
      cases h
      obtain rfl : p = c := by simpa using List.find?_some hfind
      exact List.mem_of_find?_eq_some hfind
    · split at h
      · split at h <;> cases h
      · cases h

/-- No character is spelled in two ways. -/
theorem codeOf?_of_spellsChar (h : SpellsChar c us) :
    ∃ code, codeOf? c = some code ∧ code.units = us := by
  have hbasic : ∀ i < basic.length, i ≠ escape.toNat →
      codeOf? (basic.getD i ' ') = some (.single (UInt8.ofNat i)) := by
    decide +kernel
  have hextension : ∀ p ∈ extension, codeOf? p.2 = some (.escaped p.1) := by
    decide +kernel
  cases h with
  | @basic i _ hc hi =>
    obtain ⟨hlt, -⟩ := List.getElem?_eq_some_iff.1 hc
    have hcode := hbasic i hlt hi
    rw [List.getD_eq_getElem?_getD, hc] at hcode
    exact ⟨_, hcode, rfl⟩
  | extended hu => exact ⟨_, hextension _ hu, rfl⟩

theorem spellsChar_iff : SpellsChar c us ↔ ∃ code, codeOf? c = some code ∧ code.units = us := by
  refine ⟨codeOf?_of_spellsChar, ?_⟩
  rintro ⟨code, hcode, rfl⟩
  exact spellsChar_of_codeOf? hcode

theorem codeOf?_eq_none : codeOf? c = none ↔ ¬∃ us, SpellsChar c us := by
  simp only [spellsChar_iff, Option.eq_none_iff_forall_not_mem, Option.mem_def]
  constructor
  · rintro h ⟨us, code, hcode, -⟩
    exact h code hcode
  · intro h code hcode
    exact h ⟨_, code, hcode, rfl⟩

/-! ## Whole texts -/

theorem unitsOf_eq_ok : unitsOf text = .ok units ↔ Spells text units := by
  induction text generalizing units with
  | nil =>
    constructor
    · rintro ⟨⟩
      exact .nil
    · rintro ⟨⟩
      rfl
  | cons c cs ih =>
    rw [unitsOf_cons_eq_ok]
    constructor
    · rintro ⟨code, us, hcode, hus, rfl⟩
      exact .cons (spellsChar_of_codeOf? hcode) (ih.1 hus)
    · intro h
      cases h with
      | cons hc hcs =>
        obtain ⟨code, hcode, rfl⟩ := codeOf?_of_spellsChar hc
        exact ⟨code, _, hcode, ih.2 hcs, rfl⟩

theorem firstMissing_cons {d : Char} : FirstMissing (c :: cs) d ↔
    (c = d ∧ codeOf? c = none) ∨ (∃ code, codeOf? c = some code) ∧ FirstMissing cs d := by
  constructor
  · rintro ⟨part, rest, htext, hpart, hd⟩
    cases part with
    | nil =>
      cases htext
      exact .inl ⟨rfl, codeOf?_eq_none.2 hd⟩
    | cons c' part =>
      cases htext
      obtain ⟨us, hus⟩ := hpart c (by simp)
      obtain ⟨code, hcode, -⟩ := codeOf?_of_spellsChar hus
      exact .inr ⟨⟨code, hcode⟩, part, rest, rfl,
        fun e he => hpart e (List.mem_cons_of_mem c he), hd⟩
  · rintro (⟨rfl, hnone⟩ | ⟨⟨code, hcode⟩, part, rest, rfl, hpart, hd⟩)
    · exact ⟨[], cs, rfl, by simp, codeOf?_eq_none.1 hnone⟩
    · refine ⟨c :: part, rest, rfl, ?_, hd⟩
      rintro e (_ | ⟨_, he⟩)
      · exact ⟨_, spellsChar_of_codeOf? hcode⟩
      · exact hpart e he

/-- A text is not translated for its first character that has no spelling. -/
theorem unitsOf_eq_error :
    unitsOf text = .error fault ↔ ∃ c, fault = .unmappable c ∧ FirstMissing text c := by
  induction text with
  | nil =>
    constructor
    · rintro ⟨⟩
    · rintro ⟨c, -, part, rest, htext, -⟩
      exact absurd htext (by simp)
  | cons c cs ih =>
    simp only [firstMissing_cons]
    rw [unitsOf]
    cases hc : codeOf? c with
    | none =>
      constructor
      · rintro ⟨⟩
        exact ⟨c, rfl, .inl ⟨rfl, rfl⟩⟩
      · rintro ⟨d, rfl, ⟨rfl, -⟩ | ⟨⟨code, ⟨⟩⟩, -⟩⟩
        rfl
    | some code =>
      have hrest : (unitsOf cs >>= fun us => pure (code.units ++ us)) = .error fault ↔
          unitsOf cs = .error fault := by
        rw [bind_eq_fault]
        exact or_iff_left (by rintro ⟨us, -, ⟨⟩⟩)
      dsimp only
      rw [hrest, ih]
      simp

/-- Translation finds the spelling of a text, or its first character without one; counting units
agrees with it; what it finds is read as the same text.  Whatever other units are read as has a
spelling that is no longer, and is read as the same. -/
theorem translation_normalises :
    (∀ text units, unitsOf text = .ok units ↔ Spells text units) ∧
    (∀ text fault, unitsOf text = .error fault ↔
      ∃ c, fault = .unmappable c ∧ FirstMissing text c) ∧
    (∀ text, unitCount text = (unitsOf text).map List.length) ∧
    (∀ text units, unitsOf text = .ok units → textOf units = text) ∧
    ∀ units, ∃ us, unitsOf (textOf units) = .ok us ∧ us.length ≤ units.length ∧
      textOf us = textOf units := by
  refine ⟨fun _ _ => unitsOf_eq_ok, fun _ _ => unitsOf_eq_error, unitCount_eq,
    fun _ _ => textOf_unitsOf, fun units => ?_⟩
  obtain ⟨us, hus, hle⟩ := exists_unitsOf_textOf units
  exact ⟨us, hus, hle, textOf_unitsOf hus⟩

/-- A sign of the extension behind one of the basic table; and a doubled escape, which is read as a
space. -/
theorem translation_normalises_escapes :
    unitsOf ['a', '€'] = .ok [0x61, 0x1B, 0x65] ∧ textOf [0x61, 0x1B, 0x65] = ['a', '€'] ∧
    ∃ us, unitsOf (textOf [0x1B, 0x1B, 0x42]) = .ok us ∧ us.length ≤ 3 ∧
      textOf us = [' ', 'B'] := by
  have hunits : unitsOf ['a', '€'] = .ok [0x61, 0x1B, 0x65] := rfl
  have htext : textOf [0x1B, 0x1B, 0x42] = [' ', 'B'] := rfl
  obtain ⟨-, -, -, hread, hnormal⟩ := translation_normalises
  exact ⟨hunits, hread _ _ hunits, htext ▸ hnormal [0x1B, 0x1B, 0x42]⟩

end ShortMessage.Alphabet
