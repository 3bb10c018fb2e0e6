import ShortMessage.Wire.Decoder

/-!
# Digit strings

Telephone digits are one of fifteen symbols, each four bits.  A digit string is packed two to an
octet, the first digit in the low half; the half octet left over by an odd number of digits holds
the fill nibble, which is no digit.
-/

namespace ShortMessage

/-- A telephone digit, given by its nibble. -/
structure Digit where
  /-- The four bits that stand for the digit. -/
  nibble : Nat
  /-- The fill nibble is no digit. -/
  isDigit : nibble < 15 := by decide
  deriving DecidableEq, Repr

namespace Digit

/-- The nibble in a half octet that no digit fills. -/
def fillNibble : Nat := 15

/-- The symbols of the digits, in the order of their nibbles. -/
def symbols : List Char :=
  ['0', '1', '2', '3', '4', '5', '6', '7', '8', '9', '*', '#', 'a', 'b', 'c']

/-- The digit with this nibble, unless it is the fill nibble. -/
def ofNibble? (n : Nat) : Option Digit := if h : n < 15 then some ⟨n, h⟩ else none

/-- The symbol of a digit. -/
def toChar (d : Digit) : Char := symbols.getD d.nibble ' '

/-- The digit with this symbol. -/
def ofChar? (c : Char) : Option Digit := (symbols.findIdx? (· = c)).bind ofNibble?

end Digit

/-- A string of telephone digits. -/
abbrev Digits := List Digit

namespace Digits

/-- The digits with these symbols; the first character that is none is to blame. -/
def ofChars : List Char → Except Fault Digits
  | [] => .ok []
  | c :: cs =>
    match Digit.ofChar? c with
    | none => .error (.notDigit c)
    | some d => return d :: (← ofChars cs)

/-- The symbols of the digits. -/
def toChars (ds : Digits) : List Char := ds.map Digit.toChar

/-- The digits as text. -/
def toString (ds : Digits) : String := String.ofList (toChars ds)

/-- How many octets the packed digits take. -/
def packedLength (ds : Digits) : Nat := (ds.length + 1) / 2

/-- The digits two to an octet. -/
def pack : Digits → Octets
  | [] => []
  | [d] => [UInt8.ofNat (d.nibble + 16 * Digit.fillNibble)]
  | d :: e :: ds => UInt8.ofNat (d.nibble + 16 * e.nibble) :: pack ds

/-- The nibbles of octets, the low half of each first. -/
def nibbles (s : Octets) : List Nat := s.flatMap fun b => [b.toNat % 16, b.toNat / 16]

/-- The digits with these nibbles. -/
def ofNibbles : List Nat → Except Fault Digits
  | [] => .ok []
  | n :: ns =>
    match Digit.ofNibble? n with
    | none => .error .misplacedFill
    | some d => return d :: (← ofNibbles ns)

/-- Exactly `count` packed digits; what stands behind them is not looked at. -/
def unpackCount (s : Octets) (count : Nat) : Except Fault Digits :=
  if s.length < (count + 1) / 2 then .error .incomplete
  else ofNibbles ((nibbles s).take count)

/-- Does the last octet end in the fill nibble? -/
def endsInFill (s : Octets) : Bool :=
  match s.getLast? with
  | some b => b.toNat / 16 = Digit.fillNibble
  | none => false

/-- All packed digits, with at most one fill nibble, at the very end. -/
def unpack (s : Octets) : Except Fault Digits :=
  unpackCount s (if endsInFill s then 2 * s.length - 1 else 2 * s.length)

end Digits

end ShortMessage
