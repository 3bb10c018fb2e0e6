import Mathlib.Data.Nat.Digits.Lemmas
import ShortMessage.Alphabet.Packing

/-!
# Packed units as one number

Packed units fill as many octets as `packedLength` says (`length_pack`), and the octets are one
number in base 256 whose digits in base 128, from the starting bit on, are the units
(`numberOf_pack`).  Reading takes these digits off again (`unpack_eq_ok`), so it gives back the
units that were packed (`unpack_pack`), whatever stands in the bits behind them.
-/

namespace ShortMessage.Alphabet

variable {s : Octets} {units : List UInt8} {offset : UInt8} {carry width count : Nat}

/-! ## How much room packed units take -/

theorem length_packFrom (carry : Nat) {width : Nat} (hw : width ≤ 7) (units : List UInt8) :
    (packFrom carry width units).length = packedLength width units.length := by
  unfold packedLength
  induction units generalizing carry width with
  | nil =>
    rw [packFrom]
    split
    · simp_all
    · split <;> simp <;> omega
  | cons u us ih =>
    rw [packFrom]
    split
    · rename_i hzero
      rw [ih _ (by decide), hzero]
      simp only [List.length_cons]
      omega
    · rw [List.length_cons, ih _ (by omega)]
      simp only [List.length_cons]
      omega

theorem length_pack (units : List UInt8) (offset : UInt8) :
    (pack units offset).length = packedLength (offset.toNat % 8) units.length :=
  length_packFrom 0 (by omega) units

/-! ## Octets and units as the digits of a number -/

/-- The number that octets are the digits of, the lowest first. -/
def numberOf (s : Octets) : Nat := Nat.ofDigits 256 (s.map UInt8.toNat)

/-- The number that the low seven bits of units are the digits of, the lowest first. -/
def unitNumber (units : List UInt8) : Nat := Nat.ofDigits 128 (units.map (·.toNat % 128))

/-- So many digits of a number in base 128, the lowest first. -/
def septetsOf : Nat → Nat → List UInt8
  | 0, _ => []
  | count + 1, n => UInt8.ofNat (n % 128) :: septetsOf count (n / 128)

@[simp] theorem numberOf_nil : numberOf [] = 0 := rfl

@[simp] theorem numberOf_cons (b : UInt8) (s : Octets) :
    numberOf (b :: s) = b.toNat + 256 * numberOf s := Nat.ofDigits_cons ..

@[simp] theorem unitNumber_nil : unitNumber [] = 0 := rfl

@[simp] theorem unitNumber_cons (u : UInt8) (units : List UInt8) :
    unitNumber (u :: units) = u.toNat % 128 + 128 * unitNumber units := Nat.ofDigits_cons ..

@[simp] theorem length_septetsOf (count n : Nat) : (septetsOf count n).length = count := by
  induction count generalizing n with
  | zero => rfl
  | succ count ih => rw [septetsOf, List.length_cons, ih]

/-- The digits of the number of units are these units; what stands above them is not read. -/
theorem septetsOf_unitNumber (units : List UInt8) (above : Nat) :
    septetsOf units.length (unitNumber units + 128 ^ units.length * above) =
      units.map (· &&& 0x7F) := by
  have hmask : ∀ u : UInt8, UInt8.ofNat (u.toNat % 128) = u &&& 0x7F := by
    intro u
    refine UInt8.toNat_inj.1 ?_
    rw [UInt8.toNat_and, show (0x7F : UInt8).toNat = 2 ^ 7 - 1 from rfl,
      Nat.and_two_pow_sub_one_eq_mod, UInt8.toNat_ofNat']
    omega
  induction units with
  | nil => rfl
  | cons u us ih =>
    have hsplit : unitNumber (u :: us) + 128 ^ (us.length + 1) * above =
        u.toNat % 128 + 128 * (unitNumber us + 128 ^ us.length * above) := by
      rw [unitNumber_cons]
      ring
    rw [List.length_cons, septetsOf, hsplit, Nat.add_mul_mod_self_left, Nat.mod_mod,
      Nat.add_mul_div_left _ _ (by decide), Nat.div_eq_of_lt (Nat.mod_lt _ (by decide)),
      Nat.zero_add, ih, hmask, List.map_cons]

/-! ## Packing -/

/-- What stands above so many bits in their last octet: the filler if seven bits are left over. -/
def spare (bits : Nat) : Nat := if bits % 8 = 1 then filler.toNat else 0

theorem spare_add_eight (bits : Nat) : spare (bits + 8) = spare bits := by
  rw [spare, spare, Nat.add_mod_right]

/-- Packing writes one number; what it fills up the last octet with stands above the units. -/
theorem numberOf_packFrom (hw : width ≤ 7) (hcarry : carry < 2 ^ width) (units : List UInt8) :
    numberOf (packFrom carry width units) = carry + 2 ^ width *
      (unitNumber units + 128 ^ units.length * spare (width + 7 * units.length)) := by
  induction units generalizing carry width with
  | nil =>
    rw [packFrom, spare]
    split
    · rename_i hzero
      subst hzero
      simp at hcarry ⊢
      omega
    · split
      · rename_i hone
        subst hone
        have hoctet : (UInt8.ofNat (carry + filler.toNat * 2)).toNat = carry + filler.toNat * 2 :=
          Nat.mod_eq_of_lt (by rw [show filler.toNat = 26 from rfl]; omega)
        rw [numberOf_cons, hoctet]
        simp
        ring
      · have hsmall : carry < 2 ^ 7 :=
          Nat.lt_of_lt_of_le hcarry (Nat.pow_le_pow_right (by decide) hw)
        have hoctet : (UInt8.ofNat carry).toNat = carry := Nat.mod_eq_of_lt (by omega)
        rw [if_neg (by simp; omega)]
        simp [hoctet]
  | cons u us ih =>
    have hu : u.toNat % 128 < 128 := Nat.mod_lt _ (by decide)
    rw [packFrom, Nat.shiftLeft_eq]
    split
    · -- A whole unit waits for the next octet.
      rename_i hzero
      subst hzero
      have hnone : carry = 0 := by simpa using hcarry
      subst hnone
      have hbits : 0 + 7 * (us.length + 1) = 7 + 7 * us.length := by omega
      rw [ih (show 7 ≤ 7 by decide)
        (show 0 + u.toNat % 128 * 2 ^ 0 < 2 ^ 7 by simpa using hu), unitNumber_cons,
        List.length_cons, hbits]
      ring
    · obtain ⟨w, rfl⟩ := Nat.exists_eq_add_one_of_ne_zero ‹width ≠ 0›
      have hlt : carry + u.toNat % 128 * 2 ^ (w + 1) < 256 * 2 ^ w := by
        have : (u.toNat % 128 + 1) * 2 ^ (w + 1) ≤ 128 * 2 ^ (w + 1) := Nat.mul_le_mul_right _ hu
        rw [Nat.add_mul] at this
        rw [Nat.pow_succ] at *
        omega
      have hbits : w + 1 + 7 * (us.length + 1) = w + 7 * us.length + 8 := by omega
      rw [numberOf_cons, Nat.add_sub_cancel, ih (show w ≤ 7 by omega)
        (show (carry + u.toNat % 128 * 2 ^ (w + 1)) / 256 < 2 ^ w from Nat.div_lt_of_lt_mul hlt),
        unitNumber_cons, List.length_cons, hbits, spare_add_eight, UInt8.toNat_ofNat']
      have hdigits := Nat.mod_add_div (carry + u.toNat % 128 * 2 ^ (w + 1)) 256
      generalize (carry + u.toNat % 128 * 2 ^ (w + 1)) / 256 = high at hdigits ⊢
      generalize spare (w + 7 * us.length) = above
      rw [show (2 : Nat) ^ 8 = 256 from rfl]
      calc (carry + u.toNat % 128 * 2 ^ (w + 1)) % 256 + 256 * (high + 2 ^ w *
            (unitNumber us + 128 ^ us.length * above))
          = (carry + u.toNat % 128 * 2 ^ (w + 1)) % 256 + 256 * high + 256 * 2 ^ w *
            (unitNumber us + 128 ^ us.length * above) := by ring
        _ = _ := by rw [hdigits]; ring

/-- Packed units are one number behind the bits that are left alone. -/
theorem numberOf_pack (units : List UInt8) (offset : UInt8) :
    numberOf (pack units offset) = 2 ^ (offset.toNat % 8) * (unitNumber units +
      128 ^ units.length * spare (offset.toNat % 8 + 7 * units.length)) := by
  rw [pack, numberOf_packFrom (by omega) (by positivity), Nat.zero_add]

/-! ## Reading -/

/-- Reading takes the digits of the number off, as long as there are octets for them. -/
theorem unpackFrom_eq (h : 7 * count ≤ width + 8 * s.length) :
    unpackFrom carry width count s = septetsOf count (carry + 2 ^ width * numberOf s) := by
  induction count generalizing carry width s with
  | zero => rw [unpackFrom, septetsOf]
  | succ count ih =>
    rw [unpackFrom.eq_def, septetsOf]
    dsimp only
    split
    · -- The carry has a whole unit.
      obtain ⟨w, rfl⟩ := Nat.exists_eq_add_of_le' ‹7 ≤ width›
      have hsplit : carry + 2 ^ (w + 7) * numberOf s = carry + 128 * (2 ^ w * numberOf s) := by ring
      rw [hsplit, Nat.add_mul_mod_self_left, Nat.add_mul_div_left _ _ (by decide),
        Nat.add_sub_cancel, ih (by omega)]
    · cases s with
      | nil => simp at h; omega
      | cons b rest =>
        have hsplit : carry + 2 ^ width * numberOf (b :: rest) =
            carry + b.toNat <<< width + 128 * (2 ^ (width + 1) * numberOf rest) := by
          rw [numberOf_cons, Nat.shiftLeft_eq]
          ring
        dsimp only
        rw [hsplit, Nat.add_mul_mod_self_left, Nat.add_mul_div_left _ _ (by decide),
          ih (by simp only [List.length_cons] at h; omega)]

/-- What is read from octets that have room for so many units. -/
theorem unpack_eq_ok (h : packedLength (offset.toNat % 8) count ≤ s.length) :
    unpack s offset count = .ok (septetsOf count (numberOf s / 2 ^ (offset.toNat % 8))) := by
  have hoffset : offset.toNat % 8 < 8 := Nat.mod_lt _ (by decide)
  unfold unpack
  unfold packedLength at h ⊢
  generalize offset.toNat % 8 = skipped at *
  dsimp only
  rw [if_neg (Nat.not_lt.2 h)]
  cases s with
  | nil =>
    have hcount : count = 0 := by simp at h; omega
    rw [hcount, septetsOf]
  | cons b rest =>
    have hsplit : numberOf (b :: rest) / 2 ^ skipped =
        b.toNat >>> skipped + 2 ^ (8 - skipped) * numberOf rest := by
      have h256 : 256 = 2 ^ skipped * 2 ^ (8 - skipped) := by
        rw [← Nat.pow_add, Nat.add_sub_cancel' hoffset.le]
      rw [numberOf_cons, h256, Nat.mul_assoc, Nat.add_mul_div_left _ _ (by positivity),
        Nat.shiftRight_eq_div_pow]
    simp only [List.length_cons] at h
    rw [hsplit, ← unpackFrom_eq (by omega)]

theorem length_unpack (h : unpack s offset count = .ok units) : units.length = count := by
  by_cases hroom : packedLength (offset.toNat % 8) count ≤ s.length
  · rw [unpack_eq_ok hroom] at h
    cases h
    exact length_septetsOf _ _
  · unfold unpack at h
    rw [if_pos (Nat.not_le.1 hroom)] at h
    cases h

/-- Units are read as they were packed. -/
theorem unpack_pack (units : List UInt8) (offset : UInt8) :
    unpack (pack units offset) offset units.length = .ok (units.map (· &&& 0x7F)) := by
  rw [unpack_eq_ok (Nat.le_of_eq (length_pack units offset).symm), numberOf_pack,
    Nat.mul_div_cancel_left _ (by positivity), septetsOf_unitNumber]

end ShortMessage.Alphabet
