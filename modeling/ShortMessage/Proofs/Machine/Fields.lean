import ShortMessage.Proofs.Codec.Rewriting
import ShortMessage.Proofs.Machine.Alphabet

/-!
# Coding schemes, timestamps and validity periods on a machine

The two digits of an octet are put together by multiplying and adding octets, and a zone behind
universal time by negating a signed one.  All of these stay small since each digit is at most nine.
-/

namespace ShortMessage

namespace Machine

/-! ## Two decimal digits -/

/-- Is one of the two halves no decimal digit? -/
def notDecimal (b : UInt8) : Bool := (9 : UInt8) < b &&& 0x0F || (9 : UInt8) < b >>> 4

/-- The number of two decimal digits. -/
def joinDigits (b : UInt8) : Machine UInt8 := do
  let tens ← mulOctets (b &&& 0x0F) 10
  addOctets tens (b >>> 4)

/-- Reads two decimal digits for a part of a date or period. -/
def readDigits (part : ClockPart) (b : UInt8) : Checked UInt8 :=
  if notDecimal b then throw (.field (.clockDigits part b)) else joinDigits b

/-- Two decimal digits of a number. -/
def writeDigits (n : UInt8) : UInt8 := (n % 10) <<< 4 ||| n / 10

/-- The test on the two halves refuses exactly the octets that hold no two digits. -/
theorem notDecimal_eq : ∀ b, notDecimal b = (SemiOctets.read? b).isNone := by
  decide +kernel

/-- Two digits make at most ninety-nine, which an octet holds. -/
theorem joinDigits_eq : ∀ b, ∀ n ∈ SemiOctets.read? b, joinDigits b = .ok (UInt8.ofNat n) := by
  decide +kernel

theorem gives_readDigits (part : ClockPart) (b : UInt8) :
    Checked.Gives (readDigits part b) ((SemiOctets.read part b).map UInt8.ofNat) := by
  unfold readDigits SemiOctets.read
  rw [notDecimal_eq]
  cases hread : SemiOctets.read? b with
  | none => exact Checked.gives_throw _
  | some n => exact Checked.gives_lift (joinDigits_eq b n hread)

theorem writeDigits_eq {b : UInt8} (h : b.toNat < 100) :
    writeDigits b = SemiOctets.write b.toNat := by
  have hall : ∀ b : UInt8, b.toNat < 100 → writeDigits b = SemiOctets.write b.toNat := by
    decide +kernel
  exact hall b h

/-! ## Timestamps -/

/-- The zone so many quarters ahead of universal time, or behind it. -/
def zoneOf (west : Bool) (quarters : Int8) : Machine Int8 :=
  if west then negate quarters else return quarters

/-- The timestamp in seven octets. -/
def timestampOf (raw : Octets) : Checked Timestamp := do
  let last ← (get raw 6 : Machine UInt8)
  let quarters ← readDigits .zone (last &&& 0xF7)
  let quarters ← signed quarters
  let year ← readDigits .year (← (get raw 0 : Machine UInt8))
  let year ← addWide 2000 year.toUInt16
  let month ← readDigits .month (← (get raw 1 : Machine UInt8))
  let day ← readDigits .day (← (get raw 2 : Machine UInt8))
  let hour ← readDigits .hour (← (get raw 3 : Machine UInt8))
  let minute ← readDigits .minute (← (get raw 4 : Machine UInt8))
  let second ← readDigits .second (← (get raw 5 : Machine UInt8))
  let zone ← zoneOf (Bits.has last Timestamp.westBit) quarters
  let t : Timestamp := { year, month, day, hour, minute, second, zone }
  Checked.ofExcept t.validate
  return t

theorem signed_eq {n : Nat} (h : n < 100) : signed (UInt8.ofNat n) = .ok (Int8.ofNat n) := by
  have hall : ∀ n < 100, signed (UInt8.ofNat n) = .ok (Int8.ofNat n) := by
    decide
  exact hall n h

/-- The zone is made from two digits, so it is never the one signed octet without an opposite. -/
theorem zoneOf_eq (west : Bool) {n : Nat} (h : n < 100) :
    zoneOf west (Int8.ofNat n) = .ok (if west then Int8.ofInt (-n) else Int8.ofNat n) := by
  have hall : ∀ n < 100, negate (Int8.ofNat n) = .ok (Int8.ofInt (-n)) := by
    decide
  cases west with
  | false => rfl
  | true => exact hall n h

/-- The year is at most 2099 and stays within sixteen bits. -/
theorem addWide_eq {n : Nat} (h : n < 100) :
    addWide 2000 (UInt8.ofNat n).toUInt16 = .ok (UInt16.ofNat (2000 + n)) := by
  have hall : ∀ n < 100, addWide 2000 (UInt8.ofNat n).toUInt16 = .ok (UInt16.ofNat (2000 + n)) := by
    decide
  exact hall n h

/-- The digits of the zone are read first, then those of the date, and the date is judged last. -/
theorem gives_timestampOf (year month day hour minute second zone : UInt8) :
    Checked.Gives (timestampOf [year, month, day, hour, minute, second, zone])
      (Timestamp.ofOctets year month day hour minute second zone) := by
  refine Checked.Gives.step rfl ?_
  refine (gives_readDigits .zone _).bind_map fun q hq => ?_
  refine Checked.Gives.step (signed_eq (SemiOctets.lt_of_read hq)) (Checked.Gives.step rfl ?_)
  refine (gives_readDigits .year _).bind_map fun y hy => ?_
  refine Checked.Gives.step (addWide_eq (SemiOctets.lt_of_read hy)) (Checked.Gives.step rfl ?_)
  refine (gives_readDigits .month _).bind_map fun mo _ => Checked.Gives.step rfl ?_
  refine (gives_readDigits .day _).bind_map fun d _ => Checked.Gives.step rfl ?_
  refine (gives_readDigits .hour _).bind_map fun h _ => Checked.Gives.step rfl ?_
  refine (gives_readDigits .minute _).bind_map fun mi _ => Checked.Gives.step rfl ?_
  refine (gives_readDigits .second _).bind_map fun s _ => ?_
  refine Checked.Gives.step (zoneOf_eq _ (SemiOctets.lt_of_read hq)) ?_
  exact (Checked.gives_ofExcept _).bind fun u _ => Checked.gives_pure _

/-! ## Validity periods -/

/-- The period in the octets of the enhanced form. -/
def periodOf (octets : Octets) (format : UInt8) : Checked EnhancedPeriod :=
  match format.toNat with
  | 0 => return .unspecified
  | 1 => return .relative (← (get octets 1 : Machine UInt8))
  | 2 => return .seconds (← (get octets 1 : Machine UInt8))
  | 3 => do
    let hours ← readDigits .hours (← (get octets 1 : Machine UInt8))
    let minutes ← readDigits .minutes (← (get octets 2 : Machine UInt8))
    let seconds ← readDigits .seconds (← (get octets 3 : Machine UInt8))
    if 59 < minutes ∨ 59 < seconds then throw (.field (.period hours minutes seconds))
    else return .clock hours minutes seconds
  | _ => throw (.field (.reservedFormat format))

/-- The octets of the enhanced form before the period is written. -/
def emptyPeriod (singleShot : Bool) : Machine Octets :=
  let out := List.replicate EnhancedValidity.octetCount 0
  if singleShot then orAt out 0 EnhancedValidity.singleShotBit else return out

/-- The octets of the enhanced form. -/
def enhancedOctets (v : EnhancedValidity) : Checked Octets := do
  let out ← emptyPeriod v.singleShot
  match v.period with
  | .unspecified => return out
  | .relative octet =>
    let out ← orAt out 0 0x01
    set out 1 octet
  | .seconds count =>
    let out ← orAt out 0 0x02
    set out 1 count
  | .clock hours minutes seconds =>
    if 99 < hours ∨ 59 < minutes ∨ 59 < seconds then
      throw (.field (.period hours minutes seconds))
    else
      let out ← orAt out 0 0x03
      let out ← set out 1 (writeDigits hours)
      let out ← set out 2 (writeDigits minutes)
      set out 3 (writeDigits seconds)

/-- Only the octets that the format uses are read. -/
theorem gives_periodOf (format indicator first second third : UInt8) (rest : Octets) :
    Checked.Gives (periodOf (indicator :: first :: second :: third :: rest) format)
      (EnhancedPeriod.ofOctets format first second third) := by
  unfold periodOf EnhancedPeriod.ofOctets
  generalize format.toNat = n
  match n with
  | 0 => exact Checked.gives_pure _
  | 1 => exact Checked.Gives.step rfl (Checked.gives_pure _)
  | 2 => exact Checked.Gives.step rfl (Checked.gives_pure _)
  | 3 =>
    refine Checked.Gives.step rfl ?_
    refine (gives_readDigits .hours _).bind_map fun h _ => Checked.Gives.step rfl ?_
    refine (gives_readDigits .minutes _).bind_map fun m _ => Checked.Gives.step rfl ?_
    refine (gives_readDigits .seconds _).bind_map fun s _ => ?_
    dsimp only
    by_cases hrange : UInt8.ofNat m ≤ 59 ∧ UInt8.ofNat s ≤ 59
    · rw [if_pos hrange, if_neg (by simpa [not_or] using hrange)]
      exact Checked.gives_pure _
    · rw [if_neg hrange, if_pos (by rw [not_and_or] at hrange; simpa using hrange)]
      exact Checked.gives_throw _
  | n + 4 => exact Checked.gives_throw _

/-- The enhanced form is written over seven empty octets, each at a place that is there. -/
theorem gives_enhancedOctets (v : EnhancedValidity) :
    Checked.Gives (enhancedOctets v) v.encode := by
  obtain ⟨singleShot, period⟩ := v
  have hstart : emptyPeriod singleShot =
      .ok [Bits.flag singleShot EnhancedValidity.singleShotBit, 0, 0, 0, 0, 0, 0] := by
    cases singleShot <;> rfl
  refine Checked.Gives.step hstart ?_
  cases period with
  | unspecified =>
    cases singleShot <;> exact Checked.gives_pure _
  | relative octet => exact Checked.Gives.step rfl (Checked.gives_lift rfl)
  | seconds count => exact Checked.Gives.step rfl (Checked.gives_lift rfl)
  | clock hours minutes seconds =>
    show Checked.Gives _ (EnhancedValidity.encode _)
    unfold EnhancedValidity.encode EnhancedPeriod.octets
    dsimp only
    have houtside : (99 < hours ∨ 59 < minutes ∨ 59 < seconds) ↔
        ¬(hours ≤ 99 ∧ minutes ≤ 59 ∧ seconds ≤ 59) := by
      simp only [UInt8.lt_iff_toNat_lt, UInt8.le_iff_toNat_le]
      omega
    simp only [houtside]
    by_cases hrange : hours ≤ 99 ∧ minutes ≤ 59 ∧ seconds ≤ 59
    · rw [if_neg (not_not.2 hrange), if_pos hrange]
      simp only [UInt8.le_iff_toNat_le] at hrange
      obtain ⟨hh : hours.toNat ≤ 99, hm : minutes.toNat ≤ 59, hs : seconds.toNat ≤ 59⟩ := hrange
      rw [← writeDigits_eq (show hours.toNat < 100 by omega),
        ← writeDigits_eq (show minutes.toNat < 100 by omega),
        ← writeDigits_eq (show seconds.toNat < 100 by omega)]
      refine Checked.Gives.step rfl (Checked.Gives.step rfl (Checked.Gives.step rfl ?_))
      exact Checked.gives_lift rfl
    · rw [if_pos hrange, if_neg hrange]
      exact Checked.gives_throw _

end Machine

/-! ## Reading -/

namespace Scanner

open Machine

/-- Reads a coding scheme. -/
def dataCoding : Scanner DataCoding := do
  let b ← octet
  match DataCoding.ofOctet? b with
  | some coding => return coding
  | none => throw (.reservedCoding b)

/-- Reads a timestamp. -/
def timestamp : Scanner Timestamp := do
  let raw ← octets Timestamp.octetCount
  timestampOf raw

/-- Reads the enhanced form. -/
def enhancedValidity : Scanner EnhancedValidity := do
  let octets ← octets EnhancedValidity.octetCount
  let indicator ← (get octets 0 : Machine UInt8)
  if Bits.has indicator 0x80 then throw (.field .functionalityExtended)
  let period ← periodOf octets (indicator &&& 0x07)
  return ⟨Bits.has indicator EnhancedValidity.singleShotBit, period⟩

/-- Reads the form that the low two bits name. -/
def validity (format : UInt8) : Scanner ValidityPeriod :=
  match format.toNat % 4 with
  | 0 => return .absent
  | 2 => return .relative (← octet)
  | 3 => return .absolute (← timestamp)
  | _ => return .enhanced (← enhancedValidity)

theorem follows_dataCoding : Follows dataCoding DataCoding.decoder := by
  refine follows_octet.bind fun b => ?_
  cases DataCoding.ofOctet? b with
  | none => exact follows_throw _
  | some coding => exact follows_pure coding

/-- All seven octets are taken before the first of them is judged. -/
theorem follows_timestamp : Follows timestamp Timestamp.decoder := by
  refine Follows.bind_of (follows_octets _) (yields_octets _) fun raw hraw => ?_
  match raw, hraw with
  | [year, month, day, hour, minute, second, zone], _ =>
    exact follows_lift (gives_timestampOf year month day hour minute second zone)

theorem follows_enhancedValidity : Follows enhancedValidity EnhancedValidity.decoder := by
  refine Follows.bind_of (follows_octets _) (yields_octets _) fun raw hraw => ?_
  match raw, hraw with
  | indicator :: first :: second :: third :: rest, _ =>
    refine Follows.step rfl (follows_ite (fun _ => follows_throw_bind _) fun _ => ?_)
    exact Follows.check (gives_periodOf _ _ _ _ _ _) fun p _ => follows_pure _

theorem follows_validity (format : UInt8) :
    Follows (validity format) (ValidityPeriod.decoder format) := by
  unfold validity ValidityPeriod.decoder
  generalize format.toNat % 4 = n
  match n with
  | 0 => exact follows_pure _
  | 1 => exact follows_enhancedValidity.bind fun v => follows_pure _
  | 2 => exact follows_octet.bind fun b => follows_pure _
  | 3 => exact follows_timestamp.bind fun t => follows_pure _
  | n + 4 => exact follows_enhancedValidity.bind fun v => follows_pure _

end Scanner

/-! ## Writing -/

namespace Printer

open Machine

/-- Writes a timestamp. -/
def timestamp (t : Timestamp) : Printer Unit := do
  check (Checked.ofExcept t.validate)
  put [writeDigits (← narrow (t.year.toNat % 100))]
  put [writeDigits t.month]
  put [writeDigits t.day]
  put [writeDigits t.hour]
  put [writeDigits t.minute]
  put [writeDigits t.second]
  let zone := writeDigits (UInt8.ofNat t.zone.toInt.natAbs)
  put [if t.zone < 0 then zone ||| Timestamp.westBit else zone]

/-- Writes a validity period; nothing for one that is left out. -/
def validity : ValidityPeriod → Printer Unit
  | .absent => pure ()
  | .relative octet => put [octet]
  | .absolute deadline => timestamp deadline
  | .enhanced field => do
    let octets ← check (enhancedOctets field)
    put octets

/-- A timestamp is judged first; the parts of one that is in range have two digits each. -/
theorem writes_timestamp (t : Timestamp) : Writes [] (timestamp t) t.encode := by
  refine Writes.check (Checked.gives_ofExcept _) fun u hvalid => ?_
  obtain ⟨hyear, hmonth, hday, hhour, hminute, hsecond, hlow, hhigh⟩ :=
    Timestamp.validate_eq_ok.1 hvalid
  refine Writes.step (narrow_eq (by omega)) (Writes.put ?_)
  refine Writes.put (Writes.put (Writes.put (Writes.put (Writes.put ?_))))
  have hyear' : (UInt8.ofNat (t.year.toNat % 100)).toNat = t.year.toNat % 100 := by
    rw [UInt8.toNat_ofNat']
    omega
  have hzone : (UInt8.ofNat t.zone.toInt.natAbs).toNat = t.zone.toInt.natAbs := by
    rw [UInt8.toNat_ofNat']
    omega
  have hwest : (if t.zone < 0
      then writeDigits (UInt8.ofNat t.zone.toInt.natAbs) ||| Timestamp.westBit
      else writeDigits (UInt8.ofNat t.zone.toInt.natAbs)) =
        SemiOctets.write t.zone.toInt.natAbs ||| Bits.flag (t.zone < 0) Timestamp.westBit := by
    rw [writeDigits_eq (by omega), hzone]
    by_cases hneg : t.zone < 0
    · rw [if_pos hneg, decide_eq_true hneg, Bits.flag, if_pos rfl]
    · rw [if_neg hneg, decide_eq_false hneg, Bits.flag, if_neg Bool.false_ne_true, UInt8.or_zero]
  dsimp only
  rw [hwest, writeDigits_eq (by omega), writeDigits_eq (by omega), writeDigits_eq (by omega),
    writeDigits_eq (by omega), writeDigits_eq (by omega), writeDigits_eq (by omega), hyear']
  exact writes_put _

theorem writes_validity (v : ValidityPeriod) : Writes [] (validity v) v.encode := by
  cases v with
  | absent => exact writes_pure
  | relative octet => exact writes_put [octet]
  | absolute deadline => exact writes_timestamp deadline
  | enhanced field =>
    have hwrites : Writes [] (validity (.enhanced field)) (field.encode >>= pure) :=
      Writes.check (gives_enhancedOctets field) fun s _ => writes_put s
    rwa [bind_pure] at hwrites

end Printer

end ShortMessage
