import ShortMessage.Wire.Decoder

/-!
# The default alphabet

The 128 characters that one unit stands for, and the ten that an escape and one more unit stand
for.  `codeOf?` says how a character is written; it is the inverse of the two tables.
-/

namespace ShortMessage.Alphabet

/-- The unit that makes the next one stand for a character of the extension. -/
def escape : UInt8 := 0x1B

/-- The characters that units stand for, in order.  The one at `escape` is never written. -/
def basic : List Char := [
  '@', '£', '$', '¥', 'è', 'é', 'ù', 'ì', 'ò', 'Ç', '\n', 'Ø', 'ø', '\r', 'Å', 'å',
  'Δ', '_', 'Φ', 'Γ', 'Λ', 'Ω', 'Π', 'Ψ', 'Σ', 'Θ', 'Ξ', '\x1b', 'Æ', 'æ', 'ß', 'É',
  ' ', '!', '"', '#', '¤', '%', '&', '\x27', '(', ')', '*', '+', ',', '-', '.', '/',
  '0', '1', '2', '3', '4', '5', '6', '7', '8', '9', ':', ';', '<', '=', '>', '?',
  '¡', 'A', 'B', 'C', 'D', 'E', 'F', 'G', 'H', 'I', 'J', 'K', 'L', 'M', 'N', 'O',
  'P', 'Q', 'R', 'S', 'T', 'U', 'V', 'W', 'X', 'Y', 'Z', 'Ä', 'Ö', 'Ñ', 'Ü', '§',
  '¿', 'a', 'b', 'c', 'd', 'e', 'f', 'g', 'h', 'i', 'j', 'k', 'l', 'm', 'n', 'o',
  'p', 'q', 'r', 's', 't', 'u', 'v', 'w', 'x', 'y', 'z', 'ä', 'ö', 'ñ', 'ü', 'à']

/-- The units that stand for another character after an escape. -/
def extension : List (UInt8 × Char) := [
  (0x0A, '\x0c'), (0x14, '^'), (0x28, '\x7b'), (0x29, '\x7d'), (0x2F, '\\'),
  (0x3C, '['), (0x3D, '~'), (0x3E, ']'), (0x40, '|'), (0x65, '€')]

/-- The character that a unit stands for on its own; only its low seven bits count. -/
def basicChar (u : UInt8) : Char := basic.getD (u.toNat % 128) ' '

/-- The character that a unit stands for after an escape. -/
def extensionChar? (u : UInt8) : Option Char := extension.lookup u

/-- How a character is written. -/
inductive Code where
  /-- As one unit. -/
  | single (unit : UInt8)
  /-- As an escape and one unit. -/
  | escaped (unit : UInt8)
  deriving DecidableEq, Repr

/-- The units of a code. -/
def Code.units : Code → List UInt8
  | .single u => [u]
  | .escaped u => [escape, u]

/-- How a character is written, if the alphabet has it. -/
def codeOf? (c : Char) : Option Code :=
  match extension.find? (·.2 = c) with
  | some (u, _) => some (.escaped u)
  | none =>
    match basic.findIdx? (· = c) with
    | some i => if i = escape.toNat then none else some (.single (UInt8.ofNat i))
    | none => none

end ShortMessage.Alphabet
