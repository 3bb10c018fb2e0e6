import ShortMessage.Wire.Bits
import ShortMessage.Wire.Decoder

/-!
# Transaction identifiers

The upper half of the first octet of a control message.  Its flag is clear on messages of the side
that opened the transaction and set on those of the other side; the lower half of the octet is the
same on all short message traffic.
-/

namespace ShortMessage.Control

/-- A transaction as one side sees it. -/
structure TransactionId where
  /-- Did the other side open the transaction? -/
  flag : Bool
  value : UInt8
  deriving DecidableEq, Repr

namespace TransactionId

/-- The lower half of the first octet. -/
def discriminator : UInt8 := 0x09

/-- An identifier with a value of three bits. -/
def ofParts (flag : Bool) (value : UInt8) : Except Fault TransactionId :=
  if value ≤ 7 then .ok ⟨flag, value⟩ else .error (.field (.transactionValue value))

/-- The transaction as the other side sees it. -/
def reverse (t : TransactionId) : TransactionId := { t with flag := !t.flag }

/-- The first octet of a message; of the value three bits are kept. -/
def octet (t : TransactionId) : UInt8 :=
  Bits.flag t.flag 0x80 ||| (t.value &&& 0x07) <<< 4 ||| discriminator

/-- The identifier in the first octet of a message. -/
def ofOctet (b : UInt8) : Except Fault TransactionId :=
  if b &&& 0x0F = discriminator then .ok ⟨Bits.has b 0x80, b >>> 4 &&& 0x07⟩
  else .error (.otherProtocol (b &&& 0x0F))

/-- The flag and the value of an identifier. -/
def display (t : TransactionId) : String := s!"TI {t.flag.toNat}/{t.value}"

end TransactionId

end ShortMessage.Control
