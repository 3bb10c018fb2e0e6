import ShortMessage.Calendar.Civil
import ShortMessage.Wire.Bits
import ShortMessage.Wire.Decoder

/-!
# Timestamps

A timestamp is a local date and time of day with the zone's distance from universal time in
quarters of an hour.  It travels as seven octets of two decimal digits each, the lower digit in
the upper half; the sign of the zone is a bit of the last octet.  `ofUnix` and `toUnix` go between
timestamps and seconds since 1970.
-/

namespace ShortMessage

/-- A local date and time of day. -/
structure Timestamp where
  year : UInt16
  month : UInt8
  day : UInt8
  hour : UInt8
  minute : UInt8
  second : UInt8
  /-- Quarters of an hour that local time is ahead of universal time. -/
  zone : Int8
  deriving DecidableEq, Repr

/-! ## Two decimal digits in an octet -/

namespace SemiOctets

/-- A number below 100, its lower digit in the upper half of the octet. -/
def write (n : Nat) : UInt8 := UInt8.ofNat (n % 10 * 16 + n / 10)

/-- The number that an octet of two decimal digits stands for. -/
def read? (b : UInt8) : Option Nat :=
  let tens := b.toNat % 16
  let ones := b.toNat / 16
  if tens ≤ 9 ∧ ones ≤ 9 then some (tens * 10 + ones) else none

/-- Reads two digits for a part of a date or period. -/
def read (part : ClockPart) (b : UInt8) : Except Fault Nat :=
  match read? b with
  | some n => .ok n
  | none => .error (.field (.clockDigits part b))

end SemiOctets

namespace Timestamp

/-- Octets of a timestamp. -/
def octetCount : Nat := 7

/-- Seconds of a day. -/
def secondsPerDay : Int := 86400

/-- Seconds of a quarter of an hour. -/
def secondsPerQuarter : Int := 900

/-- The seconds from universal time to the local time of a zone. -/
def zoneSeconds (zone : Int8) : Int := zone.toInt * secondsPerQuarter

/-- The timestamp of a number of seconds since 1970, in a zone.  Of the year sixteen bits are
kept. -/
def ofUnix (seconds : Int) (zone : Int8) : Timestamp :=
  let localSeconds := seconds + zoneSeconds zone
  let (year, month, day) := Civil.dateOfDay (localSeconds / secondsPerDay)
  let rest := localSeconds % secondsPerDay
  { year := UInt16.ofNat (year % 65536).toNat
    month := UInt8.ofNat month.toNat
    day := UInt8.ofNat day.toNat
    hour := UInt8.ofNat (rest / 3600).toNat
    minute := UInt8.ofNat (rest % 3600 / 60).toNat
    second := UInt8.ofNat (rest % 60).toNat
    zone }

/-- The seconds since 1970 of a timestamp. -/
def toUnix (t : Timestamp) : Int :=
  Civil.dayNumber t.year.toNat t.month.toNat t.day.toNat * secondsPerDay + t.hour.toNat * 3600 +
    t.minute.toNat * 60 + t.second.toNat - zoneSeconds t.zone

/-- The least number of seconds that 64 signed bits do not hold. -/
def secondsLimit : Int := 9223372036854775808

/-- The timestamp so many seconds later in the same zone, if 64 signed bits hold both numbers. -/
def after? (t : Timestamp) (seconds : Nat) : Option Timestamp :=
  if (seconds : Int) < secondsLimit ∧ t.toUnix + seconds < secondsLimit then
    some (ofUnix (t.toUnix + seconds) t.zone)
  else none

/-- The seconds from an earlier timestamp to this one. -/
def secondsSince (t earlier : Timestamp) : Int := t.toUnix - earlier.toUnix

/-- A part of a timestamp within its range. -/
def checkPart (part : ClockPart) (low high value : Int) : Except Fault Unit :=
  if low ≤ value ∧ value ≤ high then .ok () else .error (.field (.clockRange part value))

/-- The parts are within the ranges that the written form has. -/
def validate (t : Timestamp) : Except Fault Unit := do
  checkPart .year 2000 2099 t.year.toNat
  checkPart .month 1 12 t.month.toNat
  checkPart .day 1 31 t.day.toNat
  checkPart .hour 0 23 t.hour.toNat
  checkPart .minute 0 59 t.minute.toNat
  checkPart .second 0 59 t.second.toNat
  checkPart .zone (-79) 79 t.zone.toInt

/-- The bit that makes a zone one behind universal time. -/
def westBit : UInt8 := 0x08

/-- The seven octets of a timestamp. -/
def encode (t : Timestamp) : Except Fault Octets := do
  t.validate
  return [
    SemiOctets.write (t.year.toNat % 100), SemiOctets.write t.month.toNat,
    SemiOctets.write t.day.toNat, SemiOctets.write t.hour.toNat,
    SemiOctets.write t.minute.toNat, SemiOctets.write t.second.toNat,
    SemiOctets.write t.zone.toInt.natAbs ||| Bits.flag (t.zone < 0) westBit]

/-- The timestamp in seven octets.  A bad zone is reported before a bad date. -/
def ofOctets (year month day hour minute second zone : UInt8) : Except Fault Timestamp := do
  let quarters ← SemiOctets.read .zone (zone &&& 0xF7)
  let t : Timestamp := {
    year := UInt16.ofNat (2000 + (← SemiOctets.read .year year))
    month := UInt8.ofNat (← SemiOctets.read .month month)
    day := UInt8.ofNat (← SemiOctets.read .day day)
    hour := UInt8.ofNat (← SemiOctets.read .hour hour)
    minute := UInt8.ofNat (← SemiOctets.read .minute minute)
    second := UInt8.ofNat (← SemiOctets.read .second second)
    zone := if Bits.has zone westBit then Int8.ofInt (-quarters) else Int8.ofNat quarters }
  t.validate
  return t

/-- Reads a timestamp. -/
def decoder : Decoder Timestamp := do
  match ← Decoder.octets octetCount with
  | [year, month, day, hour, minute, second, zone] =>
    Decoder.ofExcept (ofOctets year month day hour minute second zone)
  | _ => Decoder.fail .incomplete

/-- The date, the time of day and the zone: `2011-03-22T14:25:40+09:00`. -/
def display (t : Timestamp) : String :=
  let minutes := t.zone.toInt.natAbs * 15
  Numeral.padded 4 t.year.toNat ++ "-" ++ Numeral.padded 2 t.month.toNat ++ "-" ++
    Numeral.padded 2 t.day.toNat ++ "T" ++ Numeral.padded 2 t.hour.toNat ++ ":" ++
    Numeral.padded 2 t.minute.toNat ++ ":" ++ Numeral.padded 2 t.second.toNat ++
    (if t.zone < 0 then "-" else "+") ++ Numeral.padded 2 (minutes / 60) ++ ":" ++
    Numeral.padded 2 (minutes % 60)

end Timestamp

end ShortMessage
