/-!
# Numerals in messages and labels

Octets are written `0x` and two lowercase digits, or in a row without `0x`; other hexadecimal values
have no padding, and calendar parts are decimal with leading zeros.
-/

namespace ShortMessage.Numeral

/-- The lowercase hexadecimal digits of `n`, without padding. -/
def hex (n : Nat) : String := String.ofList (Nat.toDigits 16 n)

/-- Two lowercase hexadecimal digits. -/
def hexPair (b : UInt8) : String :=
  String.ofList [Nat.digitChar (b.toNat / 16), Nat.digitChar (b.toNat % 16)]

/-- Octets in a row, two digits each. -/
def hexPairs (s : List UInt8) : String := String.join (s.map hexPair)

/-- The value of a lowercase hexadecimal digit. -/
def digitValue? (c : Char) : Option Nat :=
  if '0' ≤ c ∧ c ≤ '9' then some (c.toNat - '0'.toNat)
  else if 'a' ≤ c ∧ c ≤ 'f' then some (c.toNat - 'a'.toNat + 10)
  else none

/-- The octets that a row of digits shows. -/
def ofHexPairs? : List Char → Option (List UInt8)
  | [] => some []
  | [_] => none
  | a :: b :: rest => do
    let high ← digitValue? a
    let low ← digitValue? b
    return UInt8.ofNat (high * 16 + low) :: (← ofHexPairs? rest)

/-- An octet as messages show it: `0x07`. -/
def octet (b : UInt8) : String := "0x" ++ hexPair b

/-- An octet as labels show it: `0x07`, with capital digits. -/
def octetCapital (b : UInt8) : String := "0x" ++ (hexPair b).map Char.toUpper

/-- The decimal digits of `n`, with zeros in front up to `width` places. -/
def padded (width n : Nat) : String :=
  let digits := Nat.toDigits 10 n
  String.ofList (List.replicate (width - digits.length) '0' ++ digits)

end ShortMessage.Numeral
