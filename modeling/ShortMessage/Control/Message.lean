import ShortMessage.Control.Cause
import ShortMessage.Control.TransactionId
import ShortMessage.Relay.Message

/-!
# Messages of the control layer

Data carries an encoded relay message on a transaction.  The other side acknowledges it, or ends
the transaction with an error.
-/

namespace ShortMessage.Control

/-- A message of the control layer. -/
inductive Message where
  /-- An encoded relay message. -/
  | data (transaction : TransactionId) (payload : Octets)
  /-- Data has arrived. -/
  | ack (transaction : TransactionId)
  /-- The transaction is over. -/
  | error (transaction : TransactionId) (cause : Cause)
  deriving DecidableEq, Repr

namespace Message

/-- The most octets that data can carry. -/
def maxPayload : Nat := 248

/-- The transaction of a message. -/
def transaction : Message → TransactionId
  | .data t _ | .ack t | .error t _ => t

/-- Data that carries a relay message. -/
def carrying (t : TransactionId) (m : Relay.Message) : Except Fault Message :=
  return .data t (← m.encode)

/-- The name of a message's kind. -/
def label : Message → String
  | .data _ _ => "CP-DATA"
  | .ack _ => "CP-ACK"
  | .error _ _ => "CP-ERROR"

/-- The kind and the transaction of a message. -/
def display (m : Message) : String := s!"{m.label} ({m.transaction.display})"

/-- The type of data. -/
def dataType : UInt8 := 0x01

/-- The type of an acknowledgement. -/
def ackType : UInt8 := 0x04

/-- The type of an error. -/
def errorType : UInt8 := 0x10

/-- A payload that is not too long. -/
def checkPayload (payload : Octets) : Except Fault Unit :=
  if payload.length ≤ maxPayload then .ok ()
  else .error (.field (.controlUserDataTooLong payload.length))

/-- The octets of a message. -/
def encode : Message → Except Fault Octets
  | .data t payload => do
    checkPayload payload
    return [t.octet, dataType, UInt8.ofNat payload.length] ++ payload
  | .ack t => .ok [t.octet, ackType]
  | .error t cause => .ok [t.octet, errorType, cause.code]

/-- Reads a message. -/
def decoder : Decoder Message := do
  let t ← Decoder.ofExcept (TransactionId.ofOctet (← Decoder.octet))
  let type ← Decoder.octet
  match type.toNat with
  | 0x01 =>
    let payload ← Decoder.block
    Decoder.ofExcept (checkPayload payload)
    return .data t payload
  | 0x04 => return .ack t
  | 0x10 => return .error t (Cause.ofCode (← Decoder.octet))
  | _ => Decoder.fail (.unknownType .control type)

/-- The message that makes up all the octets. -/
def ofOctets (s : Octets) : Except Fault Message := Decoder.complete decoder s

end Message

end ShortMessage.Control
