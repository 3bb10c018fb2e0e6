import ShortMessage.UserData.Basic

/-!
# Characters and code units

The code units of a text are read as the same text (`toChars_flatMap_ofChar`).  Whatever code units
are read as takes no more of them (`length_flatMap_toChars`): only a surrogate without its partner
comes back as something else, and what stands for it is one code unit too.
-/

namespace ShortMessage

namespace CodeUnits

variable {c : Char} {u : Nat}

/-- No character has the number of a surrogate. -/
theorem toNat_bounds (c : Char) :
    c.toNat < 0xD800 ∨ (0xDFFF < c.toNat ∧ c.toNat < 0x110000) := c.valid

theorem lt_of_mem_ofChar (h : u ∈ ofChar c) : u < 0x10000 := by
  have hvalid := toNat_bounds c
  unfold ofChar at h
  dsimp only at h
  split at h
  · obtain rfl := List.mem_singleton.1 h
    assumption
  · simp only [List.mem_cons, List.not_mem_nil, or_false] at h
    omega

/-- Only the first half of a pair is read together with what follows it. -/
theorem toChars_cons_of_not_high (hu : isHigh u = false) (us : List Nat) :
    toChars (u :: us) = single u :: toChars us := by
  cases us with
  | nil => rfl
  | cons v us =>
    rw [toChars, if_neg (by simp [hu])]

theorem toChars_ofChar_append (c : Char) (us : List Nat) :
    toChars (ofChar c ++ us) = c :: toChars us := by
  have hvalid := toNat_bounds c
  unfold ofChar
  dsimp only
  split
  · have hhigh : isHigh c.toNat = false := by simp [isHigh]; omega
    have hlow : isLow c.toNat = false := by simp [isLow]; omega
    rw [List.singleton_append, toChars_cons_of_not_high hhigh, single, hhigh, hlow]
    simp
  · -- A character above the sixteen bits is a pair of surrogates, one of each sort.
    have hhigh : isHigh (0xD800 + (c.toNat - 0x10000) / 0x400) = true := by simp [isHigh]; omega
    have hlow : isLow (0xDC00 + (c.toNat - 0x10000) % 0x400) = true := by simp [isLow]; omega
    have hnumber : 0x10000 + (0xD800 + (c.toNat - 0x10000) / 0x400 - 0xD800) * 0x400 +
        (0xDC00 + (c.toNat - 0x10000) % 0x400 - 0xDC00) = c.toNat := by omega
    rw [List.cons_append, List.singleton_append, toChars, hhigh, hlow, paired, hnumber]
    simp

/-- Text is read as it was written. -/
theorem toChars_flatMap_ofChar (text : List Char) : toChars (text.flatMap ofChar) = text := by
  induction text with
  | nil => rfl
  | cons c cs ih => rw [List.flatMap_cons, toChars_ofChar_append, ih]

theorem length_ofChar_le (c : Char) : (ofChar c).length ≤ 2 := by
  unfold ofChar
  dsimp only
  split <;> simp

theorem toNat_ofNat_le (n : Nat) : (Char.ofNat n).toNat ≤ n := by
  by_cases hvalid : n.isValidChar
  · rw [Char.ofNat, dif_pos hvalid]
    exact Nat.le_refl n
  · rw [Char.ofNat, dif_neg hvalid]
    exact Nat.zero_le n

/-- A unit that stands alone is read as a character of one unit, also when it is a half without the
other. -/
theorem length_ofChar_single (hu : u < 0x10000) : (ofChar (single u)).length = 1 := by
  have hsmall : (single u).toNat < 0x10000 := by
    unfold single
    split
    · decide
    · exact Nat.lt_of_le_of_lt (toNat_ofNat_le u) hu
  unfold ofChar
  dsimp only
  rw [if_pos hsmall]
  rfl

/-- What code units are read as takes no more of them. -/
theorem length_flatMap_toChars {us : List Nat} (h : ∀ u ∈ us, u < 0x10000) :
    ((toChars us).flatMap ofChar).length ≤ us.length := by
  match us with
  | [] => exact Nat.le_refl _
  | [u] =>
    rw [toChars, List.flatMap_singleton]
    exact Nat.le_of_eq (length_ofChar_single (h u (by simp)))
  | u :: v :: rest =>
    rw [toChars]
    split
    · have hrest := length_flatMap_toChars fun w (hw : w ∈ rest) => h w (by simp [hw])
      have hpair := length_ofChar_le (paired u v)
      rw [List.flatMap_cons, List.length_append, List.length_cons, List.length_cons]
      omega
    · have hrest := length_flatMap_toChars fun w hw => h w (List.mem_cons_of_mem u hw)
      rw [List.flatMap_cons, List.length_append, length_ofChar_single (h u (by simp)),
        List.length_cons]
      omega

end CodeUnits

namespace UserData

theorem length_flatMap_codeUnitOctets (us : List Nat) :
    (us.flatMap codeUnitOctets).length = 2 * us.length := by
  induction us with
  | nil => rfl
  | cons u us ih =>
    rw [List.flatMap_cons, List.length_append, ih, List.length_cons]
    show 2 + 2 * us.length = _
    omega

/-- Code units are read from their octets. -/
theorem pairs_flatMap_codeUnitOctets {us : List Nat} (h : ∀ u ∈ us, u < 0x10000) :
    pairs (us.flatMap codeUnitOctets) = us := by
  induction us with
  | nil => rfl
  | cons u us ih =>
    have hu := h u (by simp)
    have hnumber : (UInt8.ofNat (u / 256)).toNat * 256 + (UInt8.ofNat u).toNat = u := by
      rw [UInt8.toNat_ofNat', UInt8.toNat_ofNat']
      omega
    rw [List.flatMap_cons, codeUnitOctets, List.cons_append, List.singleton_append, pairs, hnumber,
      ih fun w hw => h w (List.mem_cons_of_mem u hw)]

/-- An octet that is left over is dropped. -/
theorem length_pairs (s : Octets) : 2 * (pairs s).length ≤ s.length := by
  match s with
  | [] | [_] => exact Nat.zero_le _
  | high :: low :: rest =>
    have hrest := length_pairs rest
    rw [pairs, List.length_cons, List.length_cons, List.length_cons]
    omega

theorem lt_of_mem_pairs {s : Octets} {u : Nat} (h : u ∈ pairs s) : u < 0x10000 := by
  match s with
  | [] | [_] => cases h
  | high :: low :: rest =>
    have hhigh := high.toNat_lt
    have hlow := low.toNat_lt
    rcases List.mem_cons.1 h with rfl | h
    · omega
    · exact lt_of_mem_pairs h

end UserData

end ShortMessage
