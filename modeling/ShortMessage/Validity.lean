import ShortMessage.Calendar.Timestamp
import ShortMessage.Wire.Bits

/-!
# Validity periods

How long a message may be delivered, in one of four written forms: left out, one relative octet,
an absolute timestamp, or seven octets of the enhanced form.  The relative octet counts in steps of
five minutes, half hours, days and weeks; `relativeSeconds` reads the table and `relativeOctet?`
finds the octet of a period.  `select` picks the form for a period, `secondsAt?` and `expiry?` read
it back.
-/

namespace ShortMessage

namespace Validity

/-- Seconds of a minute. -/
def minute : Nat := 60

/-- Seconds of an hour. -/
def hour : Nat := 60 * minute

/-- Seconds of a day. -/
def day : Nat := 24 * hour

/-- Seconds of a week. -/
def week : Nat := 7 * day

/-- The longest period of hours, minutes and seconds, `99:59:59`. -/
def maxClock : Nat := 99 * hour + 59 * minute + 59

/-- The whole seconds of a number of seconds and nanoseconds. -/
def wholeSeconds (seconds nanoseconds : Nat) : Nat := seconds + nanoseconds / 1000000000

/-! ## The relative octet -/

/-- The seconds that a relative octet stands for. -/
def relativeSeconds (b : UInt8) : Nat :=
  let n := b.toNat
  if n ≤ 143 then (n + 1) * 5 * minute
  else if n ≤ 167 then 12 * hour + (n - 143) * 30 * minute
  else if n ≤ 196 then (n - 166) * day
  else (n - 192) * week

/-- Is `seconds` a whole number of steps, from `low` to `high` of them? -/
def isSteps (step low high seconds : Nat) : Bool :=
  seconds % step = 0 && low ≤ seconds / step && seconds / step ≤ high

/-- The relative octet for exactly this period, the coarsest step first. -/
def relativeOctet? (seconds : Nat) : Option UInt8 :=
  if isSteps week 5 63 seconds then some (UInt8.ofNat (192 + seconds / week))
  else if isSteps day 2 30 seconds then some (UInt8.ofNat (166 + seconds / day))
  else if 12 * hour < seconds && isSteps (30 * minute) 1 24 (seconds - 12 * hour) then
    some (UInt8.ofNat (143 + (seconds - 12 * hour) / (30 * minute)))
  else if isSteps (5 * minute) 1 144 seconds then
    some (UInt8.ofNat (seconds / (5 * minute) - 1))
  else none

end Validity

/-- The period of an enhanced validity field. -/
inductive EnhancedPeriod where
  /-- No period is given. -/
  | unspecified
  /-- A period of the relative table. -/
  | relative (octet : UInt8)
  /-- Up to 255 seconds. -/
  | seconds (count : UInt8)
  /-- Hours, minutes and seconds. -/
  | clock (hours minutes seconds : UInt8)
  deriving DecidableEq, Repr

/-- The enhanced validity field. -/
structure EnhancedValidity where
  /-- Is delivery tried only once? -/
  singleShot : Bool
  period : EnhancedPeriod
  deriving DecidableEq, Repr

/-- How long a message may be delivered. -/
inductive ValidityPeriod where
  | absent
  | relative (octet : UInt8)
  | absolute (deadline : Timestamp)
  | enhanced (field : EnhancedValidity)
  deriving DecidableEq, Repr

instance : Inhabited ValidityPeriod := ⟨.absent⟩

namespace EnhancedPeriod

/-- The seconds of a period. -/
def seconds? : EnhancedPeriod → Option Nat
  | .unspecified => none
  | .relative octet => some (Validity.relativeSeconds octet)
  | .seconds count => some count.toNat
  | .clock h m s => some (h.toNat * Validity.hour + m.toNat * Validity.minute + s.toNat)

/-- The format bits and the three value octets of a period. -/
def octets : EnhancedPeriod → Except Fault (UInt8 × UInt8 × UInt8 × UInt8)
  | .unspecified => .ok (0, 0, 0, 0)
  | .relative octet => .ok (1, octet, 0, 0)
  | .seconds count => .ok (2, count, 0, 0)
  | .clock h m s =>
    if h ≤ 99 ∧ m ≤ 59 ∧ s ≤ 59 then
      .ok (3, SemiOctets.write h.toNat, SemiOctets.write m.toNat, SemiOctets.write s.toNat)
    else .error (.field (.period h m s))

/-- The period with these format bits and value octets. -/
def ofOctets (format first second third : UInt8) : Except Fault EnhancedPeriod :=
  match format.toNat with
  | 0 => .ok .unspecified
  | 1 => .ok (.relative first)
  | 2 => .ok (.seconds first)
  | 3 => do
    let h := UInt8.ofNat (← SemiOctets.read .hours first)
    let m := UInt8.ofNat (← SemiOctets.read .minutes second)
    let s := UInt8.ofNat (← SemiOctets.read .seconds third)
    if m ≤ 59 ∧ s ≤ 59 then return .clock h m s else throw (.field (.period h m s))
  | _ => .error (.field (.reservedFormat format))

end EnhancedPeriod

namespace EnhancedValidity

/-- Octets of the enhanced form. -/
def octetCount : Nat := 7

/-- The bit for a single attempt at delivery. -/
def singleShotBit : UInt8 := 0x40

/-- The seven octets of the enhanced form. -/
def encode (v : EnhancedValidity) : Except Fault Octets := do
  let (format, first, second, third) ← v.period.octets
  return [Bits.flag v.singleShot singleShotBit ||| format, first, second, third, 0, 0, 0]

/-- Reads the enhanced form. -/
def decoder : Decoder EnhancedValidity := do
  match ← Decoder.octets octetCount with
  | indicator :: first :: second :: third :: _ =>
    if Bits.has indicator 0x80 then Decoder.reject .functionalityExtended
    let period ← Decoder.ofExcept
      (EnhancedPeriod.ofOctets (indicator &&& 0x07) first second third)
    return ⟨Bits.has indicator singleShotBit, period⟩
  | _ => Decoder.fail .incomplete

end EnhancedValidity

namespace ValidityPeriod

/-- The form for a period of whole seconds that starts at `now`.  A relative octet is used when one
stands for exactly this period, then the enhanced forms, and a deadline for what is longer.  Only
the enhanced forms can ask for a single attempt. -/
def select (seconds : Nat) (singleShot : Bool) (now : Timestamp) : ValidityPeriod :=
  if seconds = 0 then
    if singleShot then .enhanced ⟨true, .unspecified⟩ else .absent
  else
    match Validity.relativeOctet? seconds with
    | some octet => if singleShot then .enhanced ⟨true, .relative octet⟩ else .relative octet
    | none =>
      if seconds ≤ 255 then .enhanced ⟨singleShot, .seconds (UInt8.ofNat seconds)⟩
      else if seconds ≤ Validity.maxClock then
        .enhanced ⟨singleShot, .clock (UInt8.ofNat (seconds / Validity.hour))
          (UInt8.ofNat (seconds % Validity.hour / Validity.minute))
          (UInt8.ofNat (seconds % Validity.minute))⟩
      else
        match now.after? seconds with
        | some deadline => .absolute deadline
        | none => .absent

/-- The two bits that name the form. -/
def formatBits : ValidityPeriod → UInt8
  | .absent => 0
  | .enhanced _ => 1
  | .relative _ => 2
  | .absolute _ => 3

/-- The seconds that are left at `now`; none after a deadline. -/
def secondsAt? (v : ValidityPeriod) (now : Timestamp) : Option Nat :=
  match v with
  | .absent => none
  | .relative octet => some (Validity.relativeSeconds octet)
  | .absolute deadline => some (deadline.secondsSince now).toNat
  | .enhanced field => field.period.seconds?

/-- When a message expires whose period starts at `now`. -/
def expiry? (v : ValidityPeriod) (now : Timestamp) : Option Timestamp :=
  match v with
  | .absolute deadline => some deadline
  | _ => (v.secondsAt? now).bind now.after?

/-- The octets of a period; none for one that is left out. -/
def encode : ValidityPeriod → Except Fault Octets
  | .absent => .ok []
  | .relative octet => .ok [octet]
  | .absolute deadline => deadline.encode
  | .enhanced field => field.encode

/-- Reads the form that the low two bits name. -/
def decoder (format : UInt8) : Decoder ValidityPeriod :=
  match format.toNat % 4 with
  | 0 => return .absent
  | 2 => return .relative (← Decoder.octet)
  | 3 => return .absolute (← Timestamp.decoder)
  | _ => return .enhanced (← EnhancedValidity.decoder)

end ValidityPeriod

end ShortMessage
