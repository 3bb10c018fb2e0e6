/-!
# Characters as sixteen-bit code units

A character is one code unit or, above `0xFFFF`, a pair of surrogates.  Reading replaces a
surrogate that has no partner.
-/

namespace ShortMessage.CodeUnits

/-- The code units of a character. -/
def ofChar (c : Char) : List Nat :=
  let n := c.toNat
  if n < 0x10000 then [n] else [0xD800 + (n - 0x10000) / 0x400, 0xDC00 + (n - 0x10000) % 0x400]

/-- Is the code unit the first of a pair? -/
def isHigh (u : Nat) : Bool := 0xD800 ≤ u && u < 0xDC00

/-- Is the code unit the second of a pair? -/
def isLow (u : Nat) : Bool := 0xDC00 ≤ u && u < 0xE000

/-- What a surrogate without its partner is read as. -/
def replacement : Char := '\ufffd'

/-- The character of a code unit without a partner. -/
def single (u : Nat) : Char := if isHigh u || isLow u then replacement else Char.ofNat u

/-- The character of two surrogates. -/
def paired (u v : Nat) : Char := Char.ofNat (0x10000 + (u - 0xD800) * 0x400 + (v - 0xDC00))

/-- The characters of code units. -/
def toChars : List Nat → List Char
  | [] => []
  | [u] => [single u]
  | u :: v :: rest =>
    if isHigh u && isLow v then paired u v :: toChars rest else single u :: toChars (v :: rest)

end ShortMessage.CodeUnits
