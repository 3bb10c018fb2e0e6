import ShortMessage.Proofs.Codec.Address
import ShortMessage.Proofs.Machine.Alphabet

/-!
# Addresses on a machine

Digits are held as the octets of their symbols, and a nibble is found by subtracting; the lengths in
front of an address are stored in octets after it was checked that they fit.  Reading agrees with
the decoders for all octets (`follows_address`, `follows_relayAddress`); writing agrees with the
encoders for every address that memory can hold (`writes_address`, `writes_relayAddress`).
-/

namespace ShortMessage

namespace Machine

open Alphabet

/-! ## Digits -/

/-- The digit with this nibble. -/
def digit? (nibble : UInt8) : Machine (Option Digit) :=
  if nibble ≤ 9 then do
    let symbol ← addOctets 0x30 nibble
    return Digit.ofChar? (Char.ofNat symbol.toNat)
  else return Digit.ofNibble? nibble.toNat

/-- The nibble of a digit. -/
def nibble (d : Digit) : Machine UInt8 :=
  if d.nibble ≤ 9 then do
    let symbol ← narrow d.toChar.toNat
    subOctets symbol 0x30
  else return UInt8.ofNat d.nibble

/-- Both halves of every octet are looked up without a trap. -/
theorem digit?_eq : ∀ b : UInt8, digit? (b &&& 0x0F) = .ok (Digit.ofNibble? (b.toNat % 16)) ∧
    digit? (b >>> 4) = .ok (Digit.ofNibble? (b.toNat / 16)) := by
  decide +kernel

theorem nibble_eq (d : Digit) : nibble d = .ok (UInt8.ofNat d.nibble) := by
  have hall : ∀ n, (h : n < 15) → nibble ⟨n, h⟩ = .ok (UInt8.ofNat n) := by
    decide
  exact hall d.nibble d.isDigit

/-- The digit with this index. -/
def digitAt (s : Octets) (i : Nat) : Checked Digit := do
  let b ← (get s (i / 2) : Machine UInt8)
  match ← digit? (if i % 2 = 0 then b &&& 0x0F else b >>> 4) with
  | some d => return d
  | none => throw .misplacedFill

/-- The digits with the indices `i` to `i + n - 1`. -/
def digitsFrom (s : Octets) (i : Nat) : Nat → Checked Digits
  | 0 => return []
  | n + 1 => do
    let d ← digitAt s i
    return d :: (← digitsFrom s (i + 1) n)

/-- Exactly `count` packed digits. -/
def unpackDigits (s : Octets) (count : Nat) : Checked Digits :=
  if s.length < ceilDiv count 2 then throw .incomplete else digitsFrom s 0 count

/-- All packed digits. -/
def unpackAllDigits [Word] (s : Octets) : Checked Digits := do
  let count ← mul s.length 2
  if Digits.endsInFill s then unpackDigits s (← sub count 1) else unpackDigits s count

/-- The elements two by two. -/
def pairsOf {α : Type} : List α → List (List α)
  | [] => []
  | [a] => [[a]]
  | a :: b :: rest => [a, b] :: pairsOf rest

/-- The octet of one or two nibbles. -/
def pairOctet (pair : List UInt8) : Machine UInt8 := do
  let low ← get pair 0
  return low ||| (pair[1]?.getD 0x0F) <<< 4

/-- The digits two to an octet. -/
def packDigits (ds : Digits) : Machine Octets := do
  let nibbles ← ds.mapM nibble
  (pairsOf nibbles).mapM pairOctet

theorem getElem?_nibbles (s : Octets) (i : Nat) : (Digits.nibbles s)[i]? =
    s[i / 2]?.map fun b => if i % 2 = 0 then b.toNat % 16 else b.toNat / 16 := by
  induction s generalizing i with
  | nil => rfl
  | cons b s ih =>
    match i with
    | 0 => rfl
    | 1 => rfl
    | i + 2 =>
      have hdiv : (i + 2) / 2 = i / 2 + 1 := by omega
      rw [hdiv, List.getElem?_cons_succ, Nat.add_mod_right, ← ih]
      rfl

/-- A digit within the octets is the one of its nibble. -/
theorem gives_digitAt {s : Octets} {i : Nat} (h : i < (Digits.nibbles s).length) :
    Checked.Gives (digitAt s i) (match Digit.ofNibble? (Digits.nibbles s)[i] with
      | none => .error .misplacedFill
      | some d => .ok d) := by
  have hindex : i / 2 < s.length := by
    rw [Digits.length_nibbles] at h
    omega
  have hnibble : (Digits.nibbles s)[i] =
      if i % 2 = 0 then s[i / 2].toNat % 16 else s[i / 2].toNat / 16 := by
    have hget := getElem?_nibbles s i
    rw [List.getElem?_eq_getElem h, List.getElem?_eq_getElem hindex] at hget
    exact Option.some.inj hget
  have hdigit : digit? (if i % 2 = 0 then s[i / 2] &&& 0x0F else s[i / 2] >>> 4) =
      .ok (Digit.ofNibble? (Digits.nibbles s)[i]) := by
    rw [hnibble]
    split
    · exact (digit?_eq _).1
    · exact (digit?_eq _).2
  refine Checked.Gives.step (get_eq hindex) (Checked.Gives.step hdigit ?_)
  cases Digit.ofNibble? (Digits.nibbles s)[i] with
  | none => exact Checked.gives_throw _
  | some d => exact Checked.gives_pure d

/-- As long as the octets hold the digits that are asked for, none is looked up behind their end. -/
theorem gives_digitsFrom {s : Octets} {i n : Nat} (h : i + n ≤ (Digits.nibbles s).length) :
    Checked.Gives (digitsFrom s i n) (Digits.ofNibbles (((Digits.nibbles s).drop i).take n)) := by
  induction n generalizing i with
  | zero => exact Checked.gives_pure []
  | succ n ih =>
    have hi : i < (Digits.nibbles s).length := by omega
    rw [List.drop_eq_getElem_cons hi, List.take_succ_cons, Digits.ofNibbles]
    have hd := gives_digitAt hi
    cases hnibble : Digit.ofNibble? (Digits.nibbles s)[i] with
    | none =>
      rw [hnibble] at hd
      exact hd.error_bind
    | some d =>
      rw [hnibble] at hd
      have hrest := @ih (i + 1) (by omega)
      exact hd.ok_bind (hrest.bind fun ds _ => Checked.gives_pure _)

/-- Whether the octets hold as many digits as are asked for is seen before one is looked up. -/
theorem gives_unpackDigits (s : Octets) (count : Nat) :
    Checked.Gives (unpackDigits s count) (Digits.unpackCount s count) := by
  refine Checked.gives_ite (fun _ => Checked.gives_throw _) fun hroom => ?_
  have hlength := Digits.length_nibbles s
  unfold ceilDiv at hroom
  exact gives_digitsFrom (by omega)

theorem gives_unpackAllDigits [Word] {s : Octets} (h : s.length < 30000) :
    Checked.Gives (unpackAllDigits s) (Digits.unpack s) := by
  refine Checked.Gives.step (mul_eq (by omega)) ?_
  unfold Digits.unpack
  rw [Nat.mul_comm]
  cases hfill : Digits.endsInFill s with
  | true =>
    have hne : 1 ≤ 2 * s.length := by
      cases s with
      | nil => cases hfill
      | cons b s => simp; omega
    exact Checked.Gives.step (sub_eq hne) (gives_unpackDigits s _)
  | false => exact gives_unpackDigits s _

/-- An odd number of digits leaves one alone, whose octet gets the fill. -/
theorem pairOctets_eq (ds : Digits) :
    (pairsOf (ds.map fun d => UInt8.ofNat d.nibble)).mapM pairOctet = .ok ds.pack := by
  have hoctet : ∀ d < 16, ∀ e < 16, UInt8.ofNat d ||| UInt8.ofNat e <<< 4 =
      UInt8.ofNat (d + 16 * e) := by
    decide
  fun_induction Digits.pack ds with
  | case1 => rfl
  | case2 d =>
    rw [← hoctet d.nibble (Nat.lt_succ_of_lt d.isDigit) _ (by decide)]
    rfl
  | case3 d e ds ih =>
    rw [← hoctet d.nibble (Nat.lt_succ_of_lt d.isDigit) e.nibble (Nat.lt_succ_of_lt e.isDigit),
      List.map_cons, List.map_cons, pairsOf, List.mapM_cons, ih]
    rfl

theorem packDigits_eq (ds : Digits) : packDigits ds = .ok ds.pack := by
  have hnibbles : ds.mapM nibble = (.ok (ds.map fun d => UInt8.ofNat d.nibble) : Machine _) := by
    induction ds with
    | nil => rfl
    | cons d ds ih =>
      rw [List.mapM_cons, nibble_eq, ok_bind, ih]
      rfl
  rw [packDigits, hnibbles, ok_bind, pairOctets_eq]

/-! ## The rules -/

theorem length_units_le (code : Code) : code.units.length ≤ 2 := by
  cases code with
  | single u => exact Nat.le_succ 1
  | escaped u => exact Nat.le_refl 2

/-- A text takes at most two units for a character. -/
theorem length_le_of_unitsOf {cs : List Char} {units : List UInt8}
    (h : Alphabet.unitsOf cs = .ok units) : units.length ≤ 2 * cs.length := by
  induction cs generalizing units with
  | nil => cases h; exact Nat.le_refl 0
  | cons c cs ih =>
    obtain ⟨code, us, -, hus, rfl⟩ := unitsOf_cons_eq_ok.1 h
    have hle := length_units_le code
    have hrest := ih hus
    rw [List.length_append, List.length_cons]
    omega

section

variable [Word]

/-- How many units a text takes, added to a count. -/
def unitCount (count : Nat) : List Char → Checked Nat
  | [] => return count
  | c :: cs =>
    match charUnits? c with
    | none => throw (.unmappable c)
    | some n => do
      let count ← add count n
      unitCount count cs

/-- The rules on an address. -/
def validate (a : Address) : Checked Unit :=
  match a.value with
  | .text cs =>
    if a.typeOfNumber = .alphanumeric ∧ a.plan = .unknown then do
      let units ← unitCount 0 cs
      let bits ← mul units 7
      let octets ← add (ceilDiv bits 8) 2
      if octets ≤ Address.maxOctets then return () else throw (.field (.textTooLong units))
    else throw (.field .textTypeOfNumber)
  | .digits ds =>
    if a.typeOfNumber = .alphanumeric then throw (.field .digitsAlphanumeric)
    else do
      let octets ← add (ceilDiv ds.length 2) 2
      if octets ≤ Address.maxOctets then return () else throw (.field (.digitsTooLong ds.length))

/-- Memory holds the value of the address: its length is a word, and so is seven times the number of
its units, of which a character takes up to two. -/
def InMemory (a : Address) : Prop :=
  match a.value with
  | .text cs => 14 * cs.length < Word.limit
  | .digits ds => ds.length < Word.limit

theorem gives_unitCount {count : Nat} {cs : List Char} (h : count + 2 * cs.length < Word.limit) :
    Checked.Gives (unitCount count cs) ((Alphabet.unitCount cs).map (count + ·)) := by
  induction cs generalizing count with
  | nil => exact Checked.gives_pure count
  | cons c cs ih =>
    rw [unitCount, Alphabet.unitCount, charUnits?]
    cases hcode : codeOf? c with
    | none => exact Checked.gives_throw _
    | some code =>
      have hle := length_units_le code
      rw [List.length_cons] at h
      have hrest := @ih (count + code.units.length) (by omega)
      refine Checked.Gives.step (word_of_lt (show count + code.units.length < _ by omega)) ?_
      cases hunits : Alphabet.unitCount cs with
      | error fault =>
        rw [hunits] at hrest
        exact hrest
      | ok n =>
        rw [hunits] at hrest
        show Checked.Gives _ (.ok (count + (code.units.length + n)))
        rw [← Nat.add_assoc]
        exact hrest

/-- The rules only count, and memory bounds what they count. -/
theorem gives_validate {a : Address} (h : InMemory a) : Checked.Gives (validate a) a.validate := by
  have hwide := Word.wide
  unfold validate Address.validate
  unfold InMemory at h
  cases hv : a.value with
  | text cs =>
    rw [hv] at h
    refine Checked.gives_ite (fun _ => ?_) fun _ => Checked.gives_throw _
    have hcount := @gives_unitCount _ 0 cs (by omega)
    have hzero : (Alphabet.unitCount cs).map (0 + ·) = Alphabet.unitCount cs := by
      cases Alphabet.unitCount cs <;> simp [Except.map]
    rw [hzero] at hcount
    refine hcount.bind fun count hunits => ?_
    rw [unitCount_eq] at hunits
    cases hus : unitsOf cs with
    | error fault =>
      rw [hus] at hunits
      cases hunits
    | ok units =>
      rw [hus] at hunits
      cases hunits
      have hle := length_le_of_unitsOf hus
      refine Checked.Gives.step (word_of_lt (by omega)) ?_
      refine Checked.Gives.step (word_of_lt (by unfold ceilDiv; omega)) ?_
      exact Checked.gives_ite (fun _ => Checked.gives_pure _) fun _ => Checked.gives_throw _
  | digits ds =>
    rw [hv] at h
    refine Checked.gives_ite (fun _ => Checked.gives_throw _) fun _ => ?_
    refine Checked.Gives.step (word_of_lt ?_) ?_
    · unfold ceilDiv
      omega
    · exact Checked.gives_ite (fun _ => Checked.gives_pure _) fun _ => Checked.gives_throw _

end

end Machine

/-! ## Reading -/

namespace Scanner

open Machine

variable [Word]

/-- Reads the transfer form. -/
def address : Scanner Address := do
  let length := (← octet).toNat
  let count := ceilDiv length 2
  let total ← add count 2
  if Address.maxOctets < total then throw (.field (.addressLength length))
  let kind ← octet
  let typeOfNumber := TypeOfNumber.ofAddressOctet kind
  let plan := NumberingPlan.ofAddressOctet kind
  let raw ← octets count
  if typeOfNumber = .alphanumeric then
    let bits ← mul length 4
    let units ← unpackUnits raw 0 (bits / 7)
    let text ← readUnits units
    return ⟨typeOfNumber, plan, .text text⟩
  else
    let digits ← unpackDigits raw length
    return ⟨typeOfNumber, plan, .digits digits⟩

/-- Reads the relay form; `none` is an address that is left out. -/
def relayAddress : Scanner (Option Address) := do
  let length := (← octet).toNat
  if length = 0 then return none
  let count ← sub length 1
  if Address.maxRelayValue < count then throw (.field (.relayAddressLength length))
  let kind ← octet
  let count ← sub length 1
  let raw ← octets count
  let digits ← unpackAllDigits raw
  return some ⟨.ofAddressOctet kind, .ofAddressOctet kind, .digits digits⟩

/-- Whatever octets arrive, an address is read from them without a trap. -/
theorem follows_address : Follows address Address.decoder := by
  refine follows_octet.bind fun length => ?_
  have hwide := Word.wide
  have hlength := length.toNat_lt
  have hcount : ceilDiv length.toNat 2 = (length.toNat + 1) / 2 := rfl
  refine Follows.step (add_eq (by unfold ceilDiv; omega)) ?_
  refine follows_ite (fun _ => follows_throw_bind _) fun _ => ?_
  refine follows_octet.bind fun kind => (follows_octets _).bind fun raw => ?_
  refine follows_ite (fun _ => ?_) fun _ => ?_
  · refine Follows.step (mul_eq (by omega)) ?_
    refine Follows.check (gives_unpackUnits raw 0 (by omega)) fun units _ => ?_
    exact Follows.step (readUnits_eq units) (follows_pure _)
  · exact Follows.check (gives_unpackDigits raw _) fun digits _ => follows_pure _

theorem follows_relayAddress : Follows relayAddress Address.relayDecoder := by
  refine follows_octet.bind fun length => ?_
  refine follows_ite (fun _ => follows_pure none) fun hne => ?_
  have hlength : 1 ≤ length.toNat := Nat.pos_of_ne_zero hne
  refine Follows.step (sub_eq hlength) ?_
  have hlong : Address.maxRelayValue < length.toNat - 1 ↔
      Address.maxRelayValue + 1 < length.toNat := by
    omega
  simp only [hlong]
  refine follows_ite (fun _ => follows_throw_bind _) fun hfits => ?_
  refine follows_octet.bind fun kind => Follows.step (sub_eq hlength) ?_
  refine Follows.bind_of (follows_octets _) (yields_octets _) fun raw hraw => ?_
  unfold Address.maxRelayValue at hfits
  exact Follows.check (gives_unpackAllDigits (by omega)) fun digits _ => follows_pure _

end Scanner

/-! ## Writing -/

namespace Printer

open Machine

variable [Word] {a : Address}

/-- Writes the transfer form. -/
def address (a : Address) : Printer Unit := do
  check (validate a)
  match a.value with
  | .digits ds =>
    put [← narrow ds.length]
    put [a.kindOctet]
    put (← packDigits ds)
  | .text cs =>
    let units ← check (Checked.ofExcept (Alphabet.unitsOf cs))
    let packed ← packUnits units 0
    let bits ← mul units.length 7
    put [← narrow (ceilDiv bits 4)]
    put [a.kindOctet]
    put packed

/-- Writes the relay form; `none` is an address that is left out. -/
def relayAddress (a? : Option Address) : Printer Unit :=
  match a? with
  | none => put [0]
  | some a =>
    match a.value with
    | .text _ => throw (.field .relayAddressText)
    | .digits ds =>
      if Address.maxRelayValue < ceilDiv ds.length 2 then
        throw (.field (.relayDigitsTooLong ds.length))
      else do
        put [← addOctets 1 (← narrow (ceilDiv ds.length 2))]
        put [a.kindOctet]
        put (← packDigits ds)

/-- An address that memory holds is written as its encoder writes it, or refused with its error. -/
theorem writes_address (h : InMemory a) : Writes [] (address a) a.encode := by
  refine Writes.check (gives_validate h) fun u hvalid => ?_
  obtain ⟨ton, plan, ds | cs⟩ := a
  · obtain ⟨-, hfits⟩ := Address.validate_digits.1 hvalid
    unfold Digits.packedLength Address.maxOctets at hfits
    refine Writes.step (narrow_eq (by omega)) (Writes.put (Writes.put ?_))
    exact Writes.step (packDigits_eq ds) (writes_put _)
  · obtain ⟨-, units, hunits, hfits⟩ := Address.validate_text.1 hvalid
    unfold Address.maxOctets at hfits
    refine Writes.check (Checked.gives_ofExcept _) fun units' hunits' => ?_
    cases hunits.symm.trans hunits'
    have hwide := Word.wide
    refine Writes.step (packUnits_eq 0 (by omega)) (Writes.step (mul_eq (by omega)) ?_)
    refine Writes.step (narrow_eq (by unfold ceilDiv; omega)) (Writes.put (Writes.put ?_))
    exact writes_put _

omit [Word] in
theorem writes_absentRelay : Writes [] (relayAddress none) (.ok Address.absentRelay) :=
  writes_put _

omit [Word] in
/-- Digits are counted in pairs here, which does not overflow whatever memory holds. -/
theorem writes_relayAddress (a : Address) : Writes [] (relayAddress (some a)) a.encodeRelay := by
  obtain ⟨ton, plan, ds | cs⟩ := a
  · have hfits : ceilDiv ds.length 2 = ds.packedLength := rfl
    unfold relayAddress Address.encodeRelay
    dsimp only
    rw [hfits]
    by_cases hle : ds.packedLength ≤ Address.maxRelayValue
    · have hsum : addOctets 1 (UInt8.ofNat ds.packedLength) =
          .ok (UInt8.ofNat (1 + ds.packedLength)) := by
        have hall : ∀ n ≤ Address.maxRelayValue,
            addOctets 1 (UInt8.ofNat n) = .ok (UInt8.ofNat (1 + n)) := by
          decide
        exact hall _ hle
      rw [if_neg (Nat.not_lt.2 hle), if_pos hle]
      unfold Address.maxRelayValue at hle
      refine Writes.step (narrow_eq (by omega)) (Writes.step hsum (Writes.put (Writes.put ?_)))
      exact Writes.step (packDigits_eq ds) (writes_put _)
    · rw [if_pos (Nat.not_le.1 hle), if_neg hle]
      exact writes_throw _
  · exact writes_throw _

end Printer

end ShortMessage
