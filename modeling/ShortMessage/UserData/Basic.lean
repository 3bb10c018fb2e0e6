import ShortMessage.Alphabet.Packing
import ShortMessage.Coding
import ShortMessage.Text.CodeUnits
import ShortMessage.UserData.Element

/-!
# User data

A text behind an optional header, with one octet in front that counts them in the units of the
character set.  Text that does not fit is cut at a character, so that neither an escape nor a
surrogate loses its partner.  In the default alphabet the text starts at the next unit after the
header; the bits between them are fill.
-/

namespace ShortMessage

/-- A header and a text. -/
structure UserData where
  header : Header := []
  text : List Char := []
  deriving DecidableEq, Repr

instance : Inhabited UserData := ⟨{}⟩

namespace UserData

/-- The most octets of header and text in a message. -/
def maxOctets : Nat := 140

/-- The most octets of header and text in a command. -/
def maxCommandOctets : Nat := 157

/-- Does the user data begin with a header? -/
def hasHeader (u : UserData) : Bool := !u.header.isEmpty

/-- What the first element for the parts of a message says. -/
def concatenation? (u : UserData) : Option (UInt16 × UInt8 × UInt8) :=
  u.header.findSome? Element.concatenation?

/-- How many units a header of so many octets covers. -/
def headerUnits (octets : Nat) : Nat := (octets * 8 + 6) / 7

/-- The fill bits between a header of so many octets and the text. -/
def fillBits (octets : Nat) : Nat := headerUnits octets * 7 - octets * 8

/-! ## Text that fits -/

/-- The units of the longest part of a text that takes at most `room` units.  The first character
that is left out must have a code too. -/
def unitsThatFit (room : Nat) : List Char → Except Fault (List UInt8)
  | [] => .ok []
  | c :: cs =>
    match Alphabet.codeOf? c with
    | none => .error (.unmappable c)
    | some code =>
      if room < code.units.length then .ok []
      else return code.units ++ (← unitsThatFit (room - code.units.length) cs)

/-- The octets of the longest part of a text that takes at most `room` octets. -/
def octetsThatFit (room : Nat) : List Char → Except Fault Octets
  | [] => .ok []
  | c :: cs =>
    match room with
    | 0 => .ok []
    | room + 1 =>
      if c.toNat < 256 then return UInt8.ofNat c.toNat :: (← octetsThatFit room cs)
      else .error (.unmappable c)

/-- The octets of a code unit. -/
def codeUnitOctets (u : Nat) : Octets := [UInt8.ofNat (u / 256), UInt8.ofNat u]

/-- The octets of the longest part of a two-octet text that takes at most `room` octets. -/
def codeUnitsThatFit (room : Nat) : List Char → Octets
  | [] => []
  | c :: cs =>
    let octets := (CodeUnits.ofChar c).flatMap codeUnitOctets
    if room < octets.length then []
    else octets ++ codeUnitsThatFit (room - octets.length) cs

/-! ## Writing -/

/-- The length octet and the octets of the text, behind a header of `header` octets. -/
def encodeText (text : List Char) (charset : CharacterSet) (limit header : Nat) :
    Except Fault (UInt8 × Octets) :=
  match charset with
  | .gsm7 => do
    let units ← unitsThatFit (limit * 8 / 7 - headerUnits header) text
    return (UInt8.ofNat (headerUnits header + units.length),
      Alphabet.pack units (UInt8.ofNat (fillBits header)))
  | .eightBit => do
    let octets ← octetsThatFit (limit - header) text
    return (UInt8.ofNat (header + octets.length), octets)
  | .ucs2 =>
    let octets := codeUnitsThatFit (limit - header) text
    .ok (UInt8.ofNat (header + octets.length), octets)

/-- The length octet, the header and as much of the text as fits `limit` octets. -/
def encode (u : UserData) (charset : CharacterSet) (limit : Nat) : Except Fault Octets := do
  let header ← u.header.encode
  if limit < header.length then throw (.field (.headerOverLimit header.length limit))
  let (length, text) ← encodeText u.text charset limit header.length
  return length :: header ++ text

/-! ## Reading -/

/-- The octets that a length octet stands for. -/
def octetsOfLength (charset : CharacterSet) (length : Nat) : Nat :=
  match charset with
  | .gsm7 => (length * 7 + 7) / 8
  | .eightBit | .ucs2 => length

/-- The header at the front of user data, and how many octets it takes. -/
def readHeader (data : Octets) : Except Fault (Header × Nat) :=
  match data with
  | [] => .error .incomplete
  | length :: rest => do
    if rest.length < length.toNat then throw .incomplete
    return (← Header.ofOctets (rest.take length.toNat), length.toNat + 1)

/-- The code units of an even number of octets. -/
def pairs : Octets → List Nat
  | high :: low :: rest => (high.toNat * 256 + low.toNat) :: pairs rest
  | _ => []

/-- The text behind a header of `header` octets, in user data of this length. -/
def readText (charset : CharacterSet) (length header : Nat) (body : Octets) :
    Except Fault (List Char) :=
  match charset with
  | .gsm7 =>
    if length < headerUnits header then .error (.field .headerOverUserData)
    else do
      let units ← Alphabet.unpack body (UInt8.ofNat (fillBits header))
        (length - headerUnits header)
      return Alphabet.textOf units
  | .eightBit => .ok (body.map fun b => Char.ofNat b.toNat)
  | .ucs2 =>
    if body.length % 2 ≠ 0 then .error (.field .oddOctets)
    else .ok (CodeUnits.toChars (pairs body))

/-- Reads the length octet, the header if there is one, and the text. -/
def decoder (charset : CharacterSet) (hasHeader : Bool) (limit : Nat) : Decoder UserData := do
  let length := (← Decoder.octet).toNat
  let octets := octetsOfLength charset length
  if limit < octets then Decoder.reject (.userDataOverLimit length limit)
  let data ← Decoder.octets octets
  let (header, headerOctets) ←
    if hasHeader then Decoder.ofExcept (readHeader data) else pure ([], 0)
  let text ← Decoder.ofExcept (readText charset length headerOctets (data.drop headerOctets))
  return ⟨header, text⟩

end UserData

end ShortMessage
