import Mathlib.Data.Nat.Bitwise
import ShortMessage.Proofs.Machine.Alphabet

/-!
# Packed units as a stream of bits

Packing writes the bits of its units one after the other, the lowest first, into the bits of the
octets in the same order.

* `bitAt` — the bits of octets, which are those of their number (`testBit_numberOf`);
* `BitStream` — what stands in each bit of packed units, and so which octets they are
  (`BitStream.eq_pack`);
* `packs_bitStream` — packing makes the stream of bits of its units, reading takes the units out of
  any octets that have room for them and finds fewer octets too few, and a machine that puts every
  unit into one octet or two does the same.

Counts of units are those whose bits a word holds; any other count stops the machine
(`Machine.unpackUnits_overflow`).
-/

namespace ShortMessage.Alphabet

variable {s t : Octets} {units : List UInt8} {offset : UInt8} {count i j k n : Nat}

/-! ## Bits of numbers -/

/-- The bit at a place, counted from the lowest bit of the first octet; behind the end all are
clear. -/
def bitAt (s : Octets) (k : Nat) : Bool := (s.getD (k / 8) 0).toNat.testBit (k % 8)

/-- The bits of a number with others above them. -/
theorem testBit_low_add {low width : Nat} (h : low < 2 ^ width) (above k : Nat) :
    (low + 2 ^ width * above).testBit k =
      if k < width then low.testBit k else above.testBit (k - width) := by
  rw [Nat.add_comm, Nat.testBit_two_pow_mul_add above h]

theorem testBit_numberOf (s : Octets) (k : Nat) : (numberOf s).testBit k = bitAt s k := by
  induction s generalizing k with
  | nil => simp [bitAt]
  | cons b s ih =>
    rw [numberOf_cons, show 256 = 2 ^ 8 from rfl, testBit_low_add b.toNat_lt]
    by_cases hk : k < 8
    · rw [if_pos hk, bitAt, Nat.div_eq_of_lt hk, Nat.mod_eq_of_lt hk]
      rfl
    · obtain ⟨k, rfl⟩ := Nat.exists_eq_add_of_le' (Nat.not_lt.1 hk)
      rw [if_neg hk, Nat.add_sub_cancel, ih, bitAt, bitAt, Nat.add_mod_right,
        Nat.add_div_right k (by decide), List.getD_cons_succ]

/-- Octets are known by their bits. -/
theorem eq_of_bitAt (hlength : s.length = t.length) (h : ∀ k, bitAt s k = bitAt t k) : s = t := by
  have hnumber : numberOf s = numberOf t := by
    refine Nat.eq_of_testBit_eq fun k => ?_
    rw [testBit_numberOf, testBit_numberOf, h]
  have hdigit : ∀ s : Octets, ∀ d ∈ s.map UInt8.toNat, d < 256 := by
    intro s d hd
    obtain ⟨b, -, rfl⟩ := List.mem_map.1 hd
    exact b.toNat_lt
  have hmap := Nat.ofDigits_inj_of_len_eq (by decide) (by simpa using hlength) (hdigit s)
    (hdigit t) hnumber
  exact List.map_injective_iff.2 (fun a b => UInt8.toNat_inj.1) hmap

theorem unitNumber_lt (units : List UInt8) : unitNumber units < 2 ^ (7 * units.length) := by
  have hdigit : ∀ d ∈ units.map (·.toNat % 128), d < 128 := by
    intro d hd
    obtain ⟨u, -, rfl⟩ := List.mem_map.1 hd
    exact Nat.mod_lt _ (by decide)
  have hlt := Nat.ofDigits_lt_base_pow_length (by decide) hdigit
  rwa [List.length_map, show 128 = 2 ^ 7 from rfl, ← Nat.pow_mul] at hlt

theorem testBit_unitNumber (hi : i < units.length) (hj : j < 7) :
    (unitNumber units).testBit (7 * i + j) = units[i].toNat.testBit j := by
  induction units generalizing i with
  | nil => exact absurd hi (Nat.not_lt_zero i)
  | cons u us ih =>
    rw [unitNumber_cons, show 128 = 2 ^ 7 from rfl, testBit_low_add (Nat.mod_lt _ (by decide))]
    cases i with
    | zero =>
      rw [Nat.mul_zero, Nat.zero_add, if_pos hj, Nat.testBit_mod_two_pow, decide_eq_true hj,
        Bool.true_and]
      rfl
    | succ i =>
      have hplace : 7 * (i + 1) + j - 7 = 7 * i + j := by omega
      rw [if_neg (by omega), hplace, ih (Nat.lt_of_succ_lt_succ hi)]
      rfl

/-! ## What stands in each bit -/

/-- The octets hold the bits of the units from the place `offset` on; the bits in front are clear,
and so are those behind the units, unless there are seven of them, which hold the filler. -/
structure BitStream (units : List UInt8) (offset : Nat) (s : Octets) : Prop where
  length : s.length = (offset + 7 * units.length + 7) / 8
  front : ∀ k < offset, bitAt s k = false
  unit : ∀ i (hi : i < units.length), ∀ j < 7,
    bitAt s (offset + 7 * i + j) = units[i].toNat.testBit j
  behind : ∀ j, bitAt s (offset + 7 * units.length + j) =
    (decide (offset + 7 * units.length + 7 = 8 * s.length) && Nat.testBit 0x1A j)

/-- The bits of packed units are those of one number behind the place where they begin. -/
theorem bitAt_pack (units : List UInt8) (offset : UInt8) (k : Nat) :
    bitAt (pack units offset) (offset.toNat % 8 + k) =
      if k < 7 * units.length then (unitNumber units).testBit k
      else (spare (offset.toNat % 8 + 7 * units.length)).testBit (k - 7 * units.length) := by
  rw [← testBit_numberOf, numberOf_pack, Nat.testBit_two_pow_mul, Nat.add_sub_cancel_left,
    show 128 = 2 ^ 7 from rfl, ← Nat.pow_mul, testBit_low_add (unitNumber_lt units)]
  simp

theorem bitStream_pack (units : List UInt8) (offset : UInt8) :
    BitStream units (offset.toNat % 8) (pack units offset) := by
  have hlength := length_pack units offset
  rw [packedLength] at hlength
  refine ⟨hlength, fun k hk => ?_, fun i hi j hj => ?_, fun j => ?_⟩
  · rw [← testBit_numberOf, numberOf_pack, Nat.testBit_two_pow_mul]
    simp [Nat.not_le.2 hk]
  · rw [Nat.add_assoc, bitAt_pack, if_pos (by omega), testBit_unitNumber hi hj]
  · rw [Nat.add_assoc, bitAt_pack, if_neg (by omega), Nat.add_sub_cancel_left, hlength, spare]
    by_cases hseven : (offset.toNat % 8 + 7 * units.length) % 8 = 1
    · rw [if_pos hseven, decide_eq_true (by omega)]
      rfl
    · rw [if_neg hseven, decide_eq_false (by omega), Nat.zero_testBit]
      rfl

/-- Every bit of the octets is in front of the units, in one of them or behind them. -/
theorem BitStream.eq_pack (h : BitStream units (offset.toNat % 8) s) : pack units offset = s := by
  have hpack := bitStream_pack units offset
  refine eq_of_bitAt (hpack.length.trans h.length.symm) fun k => ?_
  by_cases hfront : k < offset.toNat % 8
  · rw [hpack.front k hfront, h.front k hfront]
  · obtain ⟨k, rfl⟩ := Nat.exists_eq_add_of_le (Nat.not_lt.1 hfront)
    by_cases hunit : k < 7 * units.length
    · have hk : offset.toNat % 8 + k = offset.toNat % 8 + 7 * (k / 7) + k % 7 := by omega
      rw [hk, hpack.unit (k / 7) (by omega) (k % 7) (by omega),
        h.unit (k / 7) (by omega) (k % 7) (by omega)]
    · obtain ⟨j, rfl⟩ := Nat.exists_eq_add_of_le (Nat.not_lt.1 hunit)
      rw [← Nat.add_assoc, hpack.behind, h.behind, hpack.length, h.length]

/-! ## What is read -/

theorem getElem_septetsOf (n : Nat) (hi : i < (septetsOf count n).length) :
    (septetsOf count n)[i] = UInt8.ofNat (n / 2 ^ (7 * i) % 128) := by
  induction count generalizing n i with
  | zero => exact absurd hi (Nat.not_lt_zero i)
  | succ count ih =>
    cases i with
    | zero => simp [septetsOf]
    | succ i =>
      have hpow : 2 ^ (7 * (i + 1)) = 128 * 2 ^ (7 * i) := by
        rw [Nat.mul_add, Nat.pow_add, Nat.mul_comm]
      simp only [septetsOf, List.getElem_cons_succ]
      rw [ih, hpow, Nat.div_div_eq_div_mul]

/-- Every unit that is read is below 128 and has its bits from the octets. -/
theorem unit_unpack (h : unpack s offset count = .ok units) (hi : i < units.length) :
    units[i] < 128 ∧
      ∀ j < 7, units[i].toNat.testBit j = bitAt s (offset.toNat % 8 + 7 * i + j) := by
  have hroom : packedLength (offset.toNat % 8) count ≤ s.length := by
    by_contra hshort
    unfold unpack at h
    rw [if_pos (Nat.not_le.1 hshort)] at h
    cases h
  rw [unpack_eq_ok hroom] at h
  cases h
  generalize hrest : numberOf s / 2 ^ (offset.toNat % 8) = rest at hi
  have hlt : rest / 2 ^ (7 * i) % 128 < 128 := Nat.mod_lt _ (by decide)
  have hnat : (septetsOf count rest)[i].toNat = rest / 2 ^ (7 * i) % 128 := by
    rw [getElem_septetsOf, UInt8.toNat_ofNat']
    omega
  refine ⟨UInt8.lt_iff_toNat_lt.2 (hnat ▸ hlt), fun j hj => ?_⟩
  rw [hnat, show 128 = 2 ^ 7 from rfl, Nat.testBit_mod_two_pow, decide_eq_true hj, Bool.true_and,
    Nat.testBit_div_two_pow, ← hrest, Nat.testBit_div_two_pow, testBit_numberOf]
  congr 1
  omega

/-- Packing makes the stream of bits of its units, and nothing else is one; reading finds the units
again.  In any octets that are as many as it needs, reading finds units whose stream has the same
bits from the offset to the end of the last unit.  If a word counts the bits that are asked for, a
machine that goes from octet to octet comes to the same results, and fewer octets are too few. -/
theorem packs_bitStream [Word] (offset : UInt8) (hoffset : offset ≤ 7) :
    (∀ units : List UInt8, (∀ u ∈ units, u < 128) →
      (∀ s, pack units offset = s ↔ BitStream units offset.toNat s) ∧
      unpack (pack units offset) offset units.length = .ok units ∧
      (7 * units.length + 14 < Word.limit →
        Machine.packUnits units offset = .ok (pack units offset))) ∧
    (∀ (s : Octets) (count : Nat), s.length = (offset.toNat + 7 * count + 7) / 8 →
      ∃ units, unpack s offset count = .ok units ∧ units.length = count ∧ (∀ u ∈ units, u < 128) ∧
        BitStream units offset.toNat (pack units offset) ∧
        ∀ k, offset.toNat ≤ k → k < offset.toNat + 7 * count →
          bitAt (pack units offset) k = bitAt s k) ∧
    (∀ (s : Octets) (count : Nat), offset.toNat + 7 * count < Word.limit →
      Checked.Gives (Machine.unpackUnits s offset count) (unpack s offset count) ∧
      (s.length < (offset.toNat + 7 * count + 7) / 8 →
        unpack s offset count = .error .incomplete)) := by
  have hmod : offset.toNat % 8 = offset.toNat := by
    have := UInt8.le_iff_toNat_le.1 hoffset
    exact Nat.mod_eq_of_lt (Nat.lt_succ_of_le this)
  have hstream := fun units => hmod ▸ bitStream_pack units offset
  refine ⟨fun units hunits => ⟨fun s => ⟨?_, fun h => ?_⟩, ?_, Machine.packUnits_eq offset⟩,
    fun s count hlength => ?_,
    fun s count hcount =>
      ⟨Machine.gives_unpackUnits s offset (hmod.symm ▸ hcount), fun hshort => ?_⟩⟩
  · rintro rfl
    exact hstream units
  · exact BitStream.eq_pack (hmod.symm ▸ h)
  · have hmask : units.map (· &&& 0x7F) = units := by
      refine (List.map_congr_left fun u hu => ?_).trans (List.map_id units)
      exact UInt8.toNat_inj.1 ((Machine.toNat_and_0x7F u).trans
        (Nat.mod_eq_of_lt (UInt8.lt_iff_toNat_lt.1 (hunits u hu))))
    rw [unpack_pack, hmask]
  · have hroom : packedLength (offset.toNat % 8) count ≤ s.length := by
      rw [hmod, hlength, packedLength]
    obtain ⟨units, hread⟩ : ∃ units, unpack s offset count = .ok units := ⟨_, unpack_eq_ok hroom⟩
    have hcount := length_unpack hread
    refine ⟨units, hread, hcount, fun u hu => ?_, hstream units, fun k hfront hk => ?_⟩
    · obtain ⟨i, hi, rfl⟩ := List.mem_iff_getElem.1 hu
      exact (unit_unpack hread hi).1
    · -- The bit is one of a unit, which packing writes where reading found it.
      obtain ⟨k, rfl⟩ := Nat.exists_eq_add_of_le hfront
      have hplace : offset.toNat + k = offset.toNat + 7 * (k / 7) + k % 7 := by omega
      have hunit : k / 7 < units.length := by omega
      have hbit : k % 7 < 7 := Nat.mod_lt _ (by decide)
      have hsame := (unit_unpack hread hunit).2 (k % 7) hbit
      rw [hmod] at hsame
      rw [hplace, (hstream units).unit (k / 7) hunit (k % 7) hbit, hsame]
  · unfold unpack
    rw [if_pos (by rwa [hmod])]

/-- One unit behind two bits leaves seven bits, which are filled; it is read from octets in which
the bits around it are all set, and from no single octet. -/
theorem packs_bitStream_filled : pack [0x61] 2 = [0x84, 0x35] ∧ BitStream [0x61] 2 [0x84, 0x35] ∧
    unpack [0x84, 0x35] 2 1 = .ok [0x61] ∧
    @Machine.packUnits wide [0x61] 2 = .ok [0x84, 0x35] ∧
    unpack [0x87, 0xFF] 2 1 = .ok [0x61] ∧
    (∀ k, 2 ≤ k → k < 9 → bitAt [0x84, 0x35] k = bitAt [0x87, 0xFF] k) ∧
    unpack [0x87] 2 1 = .error .incomplete ∧
    Checked.Gives (@Machine.unpackUnits wide [0x87, 0xFF] 2 1) (.ok [0x61]) := by
  obtain ⟨hpacks, hreads, hmachine⟩ := @packs_bitStream wide 2 (by decide)
  have hpack : pack [0x61] 2 = [0x84, 0x35] := rfl
  have hfound : unpack [0x87, 0xFF] 2 1 = .ok [0x61] := rfl
  have hwide : 7 * 1 + 14 < wide.limit := Nat.lt_of_lt_of_le (by decide) wide.wide
  obtain ⟨hstream, hread, hwritten⟩ :=
    hpacks [0x61] (List.forall_mem_singleton.2 (by decide))
  obtain ⟨units, hunits, -, -, -, hbits⟩ := hreads [0x87, 0xFF] 1 rfl
  have hcounted : (2 : UInt8).toNat + 7 * 1 < wide.limit := Nat.lt_of_le_of_lt (by decide) hwide
  have hgives := (hmachine [0x87, 0xFF] 1 hcounted).1
  obtain rfl : [0x61] = units := Except.ok.inj (hfound.symm.trans hunits)
  rw [hpack] at hread hwritten hbits
  rw [hfound] at hgives
  exact ⟨hpack, (hstream _).1 hpack, hread, hwritten hwide, hfound, hbits,
    (hmachine [0x87] 1 hcounted).2 (by decide), hgives⟩

end ShortMessage.Alphabet
