import ShortMessage.Wire.Bits
import ShortMessage.Wire.Decoder

/-!
# How a text is coded

The data coding octet of a message names the character set of its text and, depending on its
group, a message class or a waiting indication.  Every octet that is not reserved stands for
exactly one `DataCoding`.
-/

namespace ShortMessage

/-- What a text is made of. -/
inductive CharacterSet where
  /-- Packed units of the default alphabet. -/
  | gsm7
  /-- Octets, one for each character. -/
  | eightBit
  /-- Two octets for each code unit. -/
  | ucs2
  deriving DecidableEq, Repr

namespace CharacterSet

/-- The bits of one unit of the length octet. -/
def unitBits : CharacterSet → Nat
  | .gsm7 => 7
  | .eightBit | .ucs2 => 8

/-- The two bits that name a character set. -/
def code : CharacterSet → UInt8
  | .gsm7 => 0
  | .eightBit => 1
  | .ucs2 => 2

/-- The character set with these bits. -/
def ofCode? (b : UInt8) : Option CharacterSet :=
  match b.toNat with
  | 0 => some .gsm7
  | 1 => some .eightBit
  | 2 => some .ucs2
  | _ => none

/-- The name of a character set. -/
def label : CharacterSet → String
  | .gsm7 => "Gsm7"
  | .eightBit => "EightBit"
  | .ucs2 => "Ucs2"

end CharacterSet

/-- Where a message is meant to go: 0 is shown at once, 1 to 3 are meant for the equipment, the
card and the terminal. -/
abbrev MessageClass := Fin 4

/-- The class in the low two bits. -/
def MessageClass.ofBits (b : UInt8) : MessageClass := ⟨b.toNat % 4, Nat.mod_lt _ (by decide)⟩

/-- The bits of a class. -/
def MessageClass.code (c : MessageClass) : UInt8 := UInt8.ofNat c.val

/-- What is done with a message that indicates waiting messages. -/
inductive WaitingBehavior where
  | discard
  | store
  | storeUcs2
  deriving DecidableEq, Repr

/-- The upper half octet of a waiting indication. -/
def WaitingBehavior.group : WaitingBehavior → UInt8
  | .discard => 0xC0
  | .store => 0xD0
  | .storeUcs2 => 0xE0

/-- What kind of message is waiting. -/
inductive WaitingKind where
  | voicemail
  | fax
  | email
  | other
  deriving DecidableEq, Repr

/-- The bits of a kind of waiting message. -/
def WaitingKind.code : WaitingKind → UInt8
  | .voicemail => 0
  | .fax => 1
  | .email => 2
  | .other => 3

/-- The kind of waiting message in the low two bits. -/
def WaitingKind.ofBits (b : UInt8) : WaitingKind :=
  match b.toNat % 4 with
  | 0 => .voicemail
  | 1 => .fax
  | 2 => .email
  | _ => .other

/-- The data coding scheme of a message. -/
inductive DataCoding where
  /-- The general groups, with or without automatic deletion. -/
  | general (autoDelete compressed : Bool) (messageClass : Option MessageClass)
      (charset : CharacterSet)
  /-- An indication that messages are waiting, or no longer are. -/
  | waiting (behavior : WaitingBehavior) (active : Bool) (kind : WaitingKind)
  /-- The group for data and text with a class. -/
  | classified (data : Bool) (messageClass : MessageClass)
  deriving DecidableEq, Repr

namespace DataCoding

/-- Plain text in the default alphabet. -/
def gsm7 : DataCoding := .general false false none .gsm7

/-- Plain octets. -/
def eightBit : DataCoding := .general false false none .eightBit

/-- Plain two-octet text. -/
def ucs2 : DataCoding := .general false false none .ucs2

instance : Inhabited DataCoding := ⟨gsm7⟩

/-- The octet of a coding scheme. -/
def octet : DataCoding → UInt8
  | .general autoDelete compressed messageClass charset =>
    charset.code <<< 2 ||| Bits.flag autoDelete 0x40 ||| Bits.flag compressed 0x20 |||
      (match messageClass with
        | none => 0
        | some c => 0x10 ||| c.code)
  | .waiting behavior active kind => behavior.group ||| Bits.flag active 0x08 ||| kind.code
  | .classified data messageClass => 0xF0 ||| Bits.flag data 0x04 ||| messageClass.code

/-- The coding scheme of the general groups with this octet. -/
def ofGeneral? (b : UInt8) : Option DataCoding :=
  if !Bits.has b 0x10 && Bits.has b 0x03 then none
  else do
    let charset ← CharacterSet.ofCode? (b >>> 2 &&& 0x03)
    return .general (Bits.has b 0x40) (Bits.has b 0x20)
      (if Bits.has b 0x10 then some (MessageClass.ofBits b) else none) charset

/-- The coding scheme of the groups for waiting messages with this octet. -/
def ofWaiting? (behavior : WaitingBehavior) (b : UInt8) : Option DataCoding :=
  if Bits.has b 0x04 then none
  else some (.waiting behavior (Bits.has b 0x08) (WaitingKind.ofBits b))

/-- The coding scheme of the group for classified messages with this octet. -/
def ofClassified? (b : UInt8) : Option DataCoding :=
  if Bits.has b 0x08 then none
  else some (.classified (Bits.has b 0x04) (MessageClass.ofBits b))

/-- The coding scheme with this octet, unless it is a reserved one. -/
def ofOctet? (b : UInt8) : Option DataCoding :=
  match b.toNat / 16 with
  | 0 | 1 | 2 | 3 | 4 | 5 | 6 | 7 => ofGeneral? b
  | 8 | 9 | 10 | 11 => none
  | 12 => ofWaiting? .discard b
  | 13 => ofWaiting? .store b
  | 14 => ofWaiting? .storeUcs2 b
  | _ => ofClassified? b

/-- The character set of the text.  What is compressed is carried as octets. -/
def charset : DataCoding → CharacterSet
  | .general _ compressed _ charset => if compressed then .eightBit else charset
  | .waiting .storeUcs2 _ _ => .ucs2
  | .waiting _ _ _ => .gsm7
  | .classified data _ => if data then .eightBit else .gsm7

/-- The class of the message, if the scheme gives one. -/
def messageClass? : DataCoding → Option MessageClass
  | .general _ _ c _ => c
  | .waiting _ _ _ => none
  | .classified _ c => some c

/-- Reads a coding scheme. -/
def decoder : Decoder DataCoding := do
  let b ← Decoder.octet
  match ofOctet? b with
  | some coding => return coding
  | none => Decoder.fail (.reservedCoding b)

/-- The character set and the octet of a coding scheme. -/
def display (c : DataCoding) : String := s!"{c.charset.label} ({Numeral.octetCapital c.octet})"

end DataCoding

end ShortMessage
