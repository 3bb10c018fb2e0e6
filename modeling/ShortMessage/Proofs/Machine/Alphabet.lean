import ShortMessage.Proofs.Alphabet.Packing
import ShortMessage.Proofs.Alphabet.Text
import ShortMessage.Proofs.Machine.Steps

/-!
# Packed text on a machine

A machine finds the octet in which a unit begins by dividing, and reaches for the next octet only
when the unit goes on there.  Every unit that is read is a digit of the number that the octets are
(`unitAt_eq`), and what is written unit by unit into a buffer of zeros is the packed text
(`orUnits_eq`), so that no index leaves the octets.
-/

namespace ShortMessage.Machine

open Alphabet

variable {s : Octets} {units : List UInt8} {offset i n : Nat}

/-! ## Bits of an octet as numbers -/

section

variable {k : Nat} (x : UInt8)

theorem toNat_shiftUp (h : k < 8) : (x <<< UInt8.ofNat k).toNat = x.toNat * 2 ^ k % 256 := by
  rw [UInt8.toNat_shiftLeft, UInt8.toNat_ofNat', Nat.shiftLeft_eq,
    Nat.mod_eq_of_lt (show k % 2 ^ 8 < 8 by omega), Nat.mod_eq_of_lt (show k < 2 ^ 8 by omega)]

theorem toNat_shiftDown (h : k < 8) : (x >>> UInt8.ofNat k).toNat = x.toNat / 2 ^ k := by
  rw [UInt8.toNat_shiftRight, UInt8.toNat_ofNat', Nat.shiftRight_eq_div_pow,
    Nat.mod_eq_of_lt (show k % 2 ^ 8 < 8 by omega), Nat.mod_eq_of_lt (show k < 2 ^ 8 by omega)]

theorem toNat_and_0x7F : (x &&& 0x7F).toNat = x.toNat % 128 := by
  rw [UInt8.toNat_and]
  exact Nat.and_two_pow_sub_one_eq_mod x.toNat 7

theorem toNat_and_0x07 : (x &&& 0x07).toNat = x.toNat % 8 := by
  rw [UInt8.toNat_and]
  exact Nat.and_two_pow_sub_one_eq_mod x.toNat 3

end

/-! ## Reading units -/

theorem numberOf_drop (s : Octets) (i : Nat) : numberOf s / 2 ^ (8 * i) = numberOf (s.drop i) := by
  induction i generalizing s with
  | zero => simp
  | succ i ih =>
    cases s with
    | nil => simp
    | cons b s =>
      have hpow : 2 ^ (8 * (i + 1)) = 256 * 2 ^ (8 * i) := by
        rw [Nat.mul_add, Nat.pow_add, Nat.mul_comm]
      have hb : (b.toNat + 256 * numberOf s) / 256 = numberOf s := by
        have := b.toNat_lt
        omega
      rw [numberOf_cons, hpow, ← Nat.div_div_eq_div_mul, hb, ih, List.drop_succ_cons]

/-- The bits of a unit that lie in one octet. -/
theorem unit_in_one (b : UInt8) {shift : Nat} (h : shift ≤ 1) (above : Nat) :
    (b >>> UInt8.ofNat shift) &&& 0x7F =
      UInt8.ofNat ((b.toNat + 256 * above) / 2 ^ shift % 128) := by
  refine UInt8.toNat_inj.1 ?_
  rw [toNat_and_0x7F, toNat_shiftDown b (by omega), UInt8.toNat_ofNat']
  interval_cases shift <;> omega

/-- The bits of a unit that lie in two octets. -/
theorem unit_in_two (b c : UInt8) {shift : Nat} (h : 1 < shift) (hlt : shift < 8) (above : Nat) :
    (b >>> UInt8.ofNat shift ||| c <<< UInt8.ofNat (8 - shift)) &&& 0x7F =
      UInt8.ofNat ((b.toNat + 256 * (c.toNat + 256 * above)) / 2 ^ shift % 128) := by
  have hb := b.toNat_lt
  have hhigh : c.toNat * 2 ^ (8 - shift) % 256 = (c.toNat % 2 ^ shift) <<< (8 - shift) := by
    rw [Nat.shiftLeft_eq]
    interval_cases shift <;> omega
  have hlow : b.toNat / 2 ^ shift < 2 ^ (8 - shift) := by
    interval_cases shift <;> omega
  refine UInt8.toNat_inj.1 ?_
  rw [toNat_and_0x7F, UInt8.toNat_or, toNat_shiftDown b hlt, toNat_shiftUp c (by omega), hhigh,
    Nat.or_comm, ← Nat.shiftLeft_add_eq_or_of_lt hlow, UInt8.toNat_ofNat', Nat.shiftLeft_eq]
  interval_cases shift <;> omega

section

variable [Word]

/-- The unit with this index, from the bit `offset` on. -/
def unitAt (s : Octets) (offset i : Nat) : Machine UInt8 := do
  let pos ← add offset (← mul i 7)
  let low ← shiftDown (← get s (pos / 8)) (pos % 8)
  if 1 < pos % 8 then
    let next ← get s (← add (pos / 8) 1)
    let high ← shiftUp next (← sub 8 (pos % 8))
    return (low ||| high) &&& 0x7F
  else return low &&& 0x7F

/-- The units with the indices `i` to `i + n - 1`. -/
def unitsFrom (s : Octets) (offset i : Nat) : Nat → Machine (List UInt8)
  | 0 => return []
  | n + 1 => return (← unitAt s offset i) :: (← unitsFrom s offset (i + 1) n)

/-- Reads units from the bit `offset` on. -/
def unpackUnits (s : Octets) (offset : UInt8) (count : Nat) : Checked (List UInt8) := do
  let skipped := (offset &&& 0x07).toNat
  let bits ← add skipped (← mul count 7)
  if s.length < ceilDiv bits 8 then throw .incomplete
  else unitsFrom s skipped 0 count

/-- A unit within the octets is a digit of their number. -/
theorem unitAt_eq (hroom : offset + 7 * i + 7 ≤ 8 * s.length)
    (hsmall : offset + 7 * i < Word.limit) :
    unitAt s offset i = .ok (UInt8.ofNat (numberOf s / 2 ^ (offset + 7 * i) % 128)) := by
  have hwide := Word.wide
  have hmod : (offset + i * 7) % 8 < 8 := Nat.mod_lt _ (by decide)
  have hindex : (offset + i * 7) / 8 < s.length := by omega
  have hsplit : numberOf s / 2 ^ (offset + 7 * i) =
      numberOf (s.drop ((offset + i * 7) / 8)) / 2 ^ ((offset + i * 7) % 8) := by
    rw [← numberOf_drop, Nat.div_div_eq_div_mul, ← Nat.pow_add, Nat.div_add_mod, Nat.mul_comm i 7]
  rw [unitAt, mul_of_lt (by omega), ok_bind, add_of_lt (by omega), ok_bind, get_eq hindex, ok_bind,
    shiftDown_eq hmod, ok_bind, hsplit, List.drop_eq_getElem_cons hindex, numberOf_cons]
  by_cases hshift : 1 < (offset + i * 7) % 8
  · have hnext : (offset + i * 7) / 8 + 1 < s.length := by omega
    rw [if_pos hshift, add_of_lt (by omega), ok_bind, get_eq hnext, ok_bind, sub_eq (by omega),
      ok_bind, shiftUp_eq (by omega), ok_bind, List.drop_eq_getElem_cons hnext, numberOf_cons,
      ← unit_in_two _ _ hshift hmod]
    rfl
  · rw [if_neg hshift, ← unit_in_one _ (by omega)]
    rfl

theorem unitsFrom_eq (hroom : offset + 7 * (i + n) ≤ 8 * s.length)
    (hsmall : offset + 7 * (i + n) < Word.limit) :
    unitsFrom s offset i n = .ok (septetsOf n (numberOf s / 2 ^ (offset + 7 * i))) := by
  induction n generalizing i with
  | zero => rfl
  | succ n ih =>
    have hnext : numberOf s / 2 ^ (offset + 7 * (i + 1)) =
        numberOf s / 2 ^ (offset + 7 * i) / 128 := by
      rw [Nat.div_div_eq_div_mul, Nat.mul_add, ← Nat.add_assoc, Nat.pow_add]
    rw [unitsFrom, unitAt_eq (by omega) (by omega), ok_bind, ih (by omega) (by omega), ok_bind,
      septetsOf, hnext]
    rfl

/-- Reading units stays within the octets and finds what `unpack` does if a word counts the bits. -/
theorem gives_unpackUnits (s : Octets) (offset : UInt8) {count : Nat}
    (hcount : offset.toNat % 8 + 7 * count < Word.limit) :
    Checked.Gives (unpackUnits s offset count) (unpack s offset count) := by
  have hneeded : ceilDiv (offset.toNat % 8 + count * 7) 8 =
      packedLength (offset.toNat % 8) count := by
    rw [ceilDiv, packedLength, Nat.mul_comm]
    omega
  unfold unpackUnits
  rw [toNat_and_0x07]
  refine Checked.Gives.step (mul_of_lt (by omega)) (Checked.Gives.step (add_of_lt (by omega)) ?_)
  rw [hneeded]
  by_cases hshort : s.length < packedLength (offset.toNat % 8) count
  · unfold unpack
    rw [if_pos hshort, if_pos hshort]
    exact Checked.gives_throw _
  · have hroom : packedLength (offset.toNat % 8) count ≤ s.length := Nat.not_lt.1 hshort
    rw [if_neg hshort, unpack_eq_ok hroom]
    unfold packedLength at hroom
    refine Checked.gives_lift ?_
    rw [unitsFrom_eq (by omega) (by omega)]
    rfl

/-- Bits that a word does not count stop the machine before it looks at the octets. -/
theorem unpackUnits_overflow (s : Octets) (offset : UInt8) {count : Nat}
    (hcount : Word.limit ≤ offset.toNat % 8 + 7 * count) :
    (unpackUnits s offset count).run = .error .overflow := by
  unfold unpackUnits
  rw [toNat_and_0x07]
  by_cases hmul : count * 7 < Word.limit
  · have hadd : add (offset.toNat % 8) (count * 7) = .error .overflow := if_neg (by omega)
    rw [mul_of_lt hmul]
    show ((liftM (add (offset.toNat % 8) (count * 7)) : Checked Nat) >>= _).run = _
    rw [hadd]
    rfl
  · rw [show mul count 7 = .error .overflow from if_neg hmul]
    rfl

end

/-! ## Text -/

/-- The character at a place of the table. -/
def charAt (u : UInt8) : Machine Char := get basic u.toNat

/-- The character of a unit behind an escape. -/
def escapedAt (u : UInt8) : Machine Char :=
  if u = escape then return ' '
  else
    match extensionChar? u with
    | some c => return c
    | none => charAt u

/-- The characters of units below 128, an escape taking the next unit with it. -/
def charsOf : List UInt8 → Machine (List Char)
  | [] => return []
  | [u] => if u = escape then return [' '] else return [← charAt u]
  | u :: v :: rest =>
    if u = escape then return (← escapedAt v) :: (← charsOf rest)
    else return (← charAt u) :: (← charsOf (v :: rest))

/-- The text that units stand for. -/
def readUnits (units : List UInt8) : Machine (List Char) := charsOf (units.map (· &&& 0x7F))

theorem charAt_eq (u : UInt8) : charAt (u &&& 0x7F) = .ok (basicChar (u &&& 0x7F)) := by
  have hall : ∀ i < 128, charAt (UInt8.ofNat i) = .ok (basicChar (UInt8.ofNat i)) := by
    decide +kernel
  have hunit := hall _ (toNat_masked_lt u)
  rwa [UInt8.ofNat_toNat] at hunit

theorem escapedAt_eq (u : UInt8) : escapedAt (u &&& 0x7F) = .ok (escapedChar (u &&& 0x7F)) := by
  unfold escapedAt escapedChar
  split
  · rfl
  · cases extensionChar? (u &&& 0x7F) with
    | none => exact charAt_eq u
    | some c => rfl

theorem readUnits_eq (units : List UInt8) : readUnits units = .ok (textOf units) := by
  match units with
  | [] => rfl
  | [u] =>
    by_cases hu : u &&& 0x7F = escape
    · rw [textOf_escape_nil hu]
      exact if_pos hu
    · rw [textOf_basic_cons hu]
      refine (if_neg hu).trans ?_
      rw [charAt_eq]
      rfl
  | u :: v :: rest =>
    by_cases hu : u &&& 0x7F = escape
    · have hrest := readUnits_eq rest
      unfold readUnits at hrest
      rw [textOf_escape_cons hu]
      refine (if_pos hu).trans ?_
      rw [escapedAt_eq, ok_bind, hrest]
      rfl
    · have hrest := readUnits_eq (v :: rest)
      unfold readUnits at hrest
      rw [textOf_basic_cons hu]
      refine (if_neg hu).trans ?_
      rw [charAt_eq, ok_bind]
      change (charsOf ((v :: rest).map (· &&& 0x7F)) >>= _) = _
      rw [hrest]
      rfl

/-! ## Writing units -/

/-- Sets bits of the octet at an index. -/
def orAt (out : Octets) (i : Nat) (bits : UInt8) : Machine Octets := do
  set out i ((← get out i) ||| bits)

theorem orAt_append {done rest : Octets} {b : UInt8} (bits : UInt8) (hi : i = done.length) :
    orAt (done ++ b :: rest) i bits = .ok (done ++ (b ||| bits) :: rest) := by
  subst hi
  rw [orAt, get_eq (by simp), ok_bind, set_eq (by simp)]
  simp

/-- Octets with only the lowest of them written. -/
def pending (carry : Nat) : Nat → Octets
  | 0 => []
  | room + 1 => UInt8.ofNat carry :: List.replicate room 0

theorem pending_zero (room : Nat) : pending 0 room = List.replicate room 0 := by
  cases room <;> rfl

/-- What a unit adds to the octet in which it begins. -/
theorem or_shiftUp (u : UInt8) {carry width : Nat} (hw : width < 8) (hcarry : carry < 2 ^ width) :
    UInt8.ofNat carry ||| (u &&& 0x7F) <<< UInt8.ofNat width =
      UInt8.ofNat (carry + (u.toNat % 128) <<< width) := by
  have hhigh : u.toNat % 128 * 2 ^ width % 256 = (u.toNat % 128 % 2 ^ (8 - width)) <<< width := by
    rw [Nat.shiftLeft_eq]
    interval_cases width <;> omega
  have hlow : (UInt8.ofNat carry).toNat = carry := by
    rw [UInt8.toNat_ofNat']
    interval_cases width <;> omega
  refine UInt8.toNat_inj.1 ?_
  rw [UInt8.toNat_or, hlow, toNat_shiftUp _ hw, toNat_and_0x7F, hhigh, Nat.or_comm,
    ← Nat.shiftLeft_add_eq_or_of_lt hcarry, UInt8.toNat_ofNat', Nat.shiftLeft_eq, Nat.shiftLeft_eq]
  interval_cases width <;> omega

/-- What a unit adds to the octet behind. -/
theorem shiftDown_rest (u : UInt8) {carry width : Nat} (hw : width < 8) (hw' : 1 < width)
    (hcarry : carry < 2 ^ width) :
    (0 : UInt8) ||| (u &&& 0x7F) >>> UInt8.ofNat (8 - width) =
      UInt8.ofNat ((carry + (u.toNat % 128) <<< width) / 256) := by
  refine UInt8.toNat_inj.1 ?_
  rw [UInt8.zero_or, toNat_shiftDown _ (by omega), toNat_and_0x7F, UInt8.toNat_ofNat',
    Nat.shiftLeft_eq]
  interval_cases width <;> omega

/-- The filler is one more unit, if it is needed. -/
theorem packFrom_append_filler (carry : Nat) {width : Nat} (hw : width < 8) (units : List UInt8)
    (hfull : (width + 7 * units.length) % 8 = 1) :
    packFrom carry width (units ++ [filler]) = packFrom carry width units := by
  induction units generalizing carry width with
  | nil =>
    obtain rfl : width = 1 := by simp at hfull; omega
    rw [List.nil_append, packFrom, packFrom, packFrom]
    rfl
  | cons u us ih =>
    simp only [List.length_cons] at hfull
    rw [List.cons_append, packFrom, packFrom]
    by_cases hzero : width = 0
    · rw [if_pos hzero, if_pos hzero, ih _ (by decide) (by omega)]
    · rw [if_neg hzero, if_neg hzero, ih _ (by omega) (by omega)]

section

variable [Word]

/-- Writes units from the index `i` on into the octets. -/
def orUnits (offset : Nat) : Octets → Nat → List UInt8 → Machine Octets
  | out, _, [] => return out
  | out, i, u :: us => do
    let unit := u &&& 0x7F
    let pos ← add offset (← mul i 7)
    let out ← orAt out (pos / 8) (← shiftUp unit (pos % 8))
    if 1 < pos % 8 then
      let high ← shiftDown unit (← sub 8 (pos % 8))
      let out ← orAt out (← add (pos / 8) 1) high
      orUnits offset out (i + 1) us
    else orUnits offset out (i + 1) us

/-- Packs units from the bit `offset` on. -/
def packUnits (units : List UInt8) (offset : UInt8) : Machine Octets := do
  let skipped := (offset &&& 0x07).toNat
  let bits ← add skipped (← mul units.length 7)
  if bits % 8 = 1 then
    let filled ← add bits 7
    orUnits skipped (List.replicate (ceilDiv filled 8) 0) 0 (units ++ [filler])
  else orUnits skipped (List.replicate (ceilDiv bits 8) 0) 0 units

/-- Units written behind whole octets and the pending bits of one more are packed there. -/
theorem orUnits_eq (units : List UInt8) {done : Octets} {carry width : Nat} (hw : width < 8)
    (hcarry : carry < 2 ^ width) (hpos : offset + 7 * i = 8 * done.length + width)
    (hsmall : offset + 7 * (i + units.length) < Word.limit)
    (hfull : (width + 7 * units.length) % 8 ≠ 1) :
    orUnits offset (done ++ pending carry (packedLength width units.length)) i units =
      .ok (done ++ packFrom carry width units) := by
  induction units generalizing done carry width i with
  | nil =>
    rw [packFrom, packedLength]
    simp only [List.length_nil, Nat.mul_zero, Nat.add_zero] at hfull ⊢
    by_cases hzero : width = 0
    · rw [if_pos hzero, hzero]
      rfl
    · have hroom : (width + 7) / 8 = 1 := by omega
      rw [if_neg hzero, if_neg (by omega), hroom]
      rfl
  | cons u us ih =>
    have hdiv : (offset + i * 7) / 8 = done.length := by omega
    have hmod : (offset + i * 7) % 8 = width := by omega
    obtain ⟨room, hroom⟩ : ∃ room, packedLength width (u :: us).length = room + 1 :=
      ⟨packedLength width (u :: us).length - 1, by unfold packedLength; simp; omega⟩
    unfold packedLength at hroom
    simp only [List.length_cons] at hroom hsmall hfull
    rw [packedLength, List.length_cons, hroom, pending, packFrom, orUnits]
    rw [mul_of_lt (by omega), ok_bind, add_of_lt (by omega), ok_bind, hdiv, hmod, shiftUp_eq hw,
      ok_bind, orAt_append _ rfl, ok_bind, or_shiftUp u hw hcarry]
    generalize hcarry' : carry + (u.toNat % 128) <<< width = carry'
    by_cases hlong : 1 < width
    · obtain ⟨rest, rfl⟩ : ∃ rest, room = rest + 1 := ⟨room - 1, by omega⟩
      have hlt : carry' / 256 < 2 ^ (width - 1) := by
        rw [← hcarry', Nat.shiftLeft_eq]
        interval_cases width <;> omega
      have hih := @ih (i + 1) (done ++ [UInt8.ofNat carry']) (carry' / 256) (width - 1) (by omega)
        hlt (by simp; omega) (by omega) (by omega)
      rw [packedLength, show (width - 1 + 7 * us.length + 7) / 8 = rest + 1 by omega, pending,
        List.append_assoc, List.append_assoc, List.singleton_append, List.singleton_append] at hih
      rw [if_pos hlong, sub_eq (by omega), ok_bind, shiftDown_eq (by omega), ok_bind,
        add_of_lt (by omega), ok_bind, List.replicate_succ, List.append_cons,
        orAt_append _ (by simp), ok_bind, shiftDown_rest u hw hlong hcarry, hcarry',
        ← List.append_cons, if_neg (by omega), hih]
    · rw [if_neg hlong]
      by_cases hzero : width = 0
      · subst hzero
        have hlt : carry' < 2 ^ 7 := by
          rw [← hcarry', Nat.shiftLeft_eq]
          omega
        have hih := @ih (i + 1) done carry' 7 (by decide) hlt (by omega) (by omega) (by omega)
        rw [packedLength, show (7 + 7 * us.length + 7) / 8 = room + 1 by omega, pending] at hih
        rw [if_pos rfl, hih]
      · obtain rfl : width = 1 := by omega
        have hnone : carry' / 256 = 0 := by
          rw [← hcarry', Nat.shiftLeft_eq]
          omega
        have hih := @ih (i + 1) (done ++ [UInt8.ofNat carry']) 0 0 (by decide) (by decide)
          (by simp; omega) (by omega) (by omega)
        rw [packedLength, show (0 + 7 * us.length + 7) / 8 = room by omega, pending_zero,
          List.append_assoc, List.append_assoc, List.singleton_append,
          List.singleton_append] at hih
        rw [if_neg hzero, hnone, hih]

/-- Packing units stays within the octets and packs them as `pack` does. -/
theorem packUnits_eq (offset : UInt8) (hsmall : 7 * units.length + 14 < Word.limit) :
    packUnits units offset = .ok (pack units offset) := by
  have hlt : offset.toNat % 8 < 8 := Nat.mod_lt _ (by decide)
  have horUnits := fun us hlength hfull => @orUnits_eq (offset.toNat % 8) 0 _ us
    [] 0 (offset.toNat % 8) hlt (by positivity) (by simp) hlength hfull
  simp only [List.nil_append, pending_zero, Nat.zero_add] at horUnits
  rw [packUnits, toNat_and_0x07, mul_of_lt (by omega), ok_bind, add_of_lt (by omega), ok_bind, pack]
  by_cases hfull : (offset.toNat % 8 + units.length * 7) % 8 = 1
  · rw [if_pos hfull, add_of_lt (by omega), ok_bind,
      ← packFrom_append_filler 0 hlt units (by omega),
      ← horUnits (units ++ [filler]) (by simp; omega) (by simp; omega), ceilDiv, packedLength,
      List.length_append, List.length_singleton]
    congr 2
    omega
  · rw [if_neg hfull, ← horUnits units (by omega) (by omega), ceilDiv, packedLength]
    congr 2
    omega

end

end ShortMessage.Machine
