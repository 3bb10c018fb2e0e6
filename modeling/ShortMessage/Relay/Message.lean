import ShortMessage.Relay.Cause
import ShortMessage.Transfer.Message

/-!
# Messages of the relay layer

Data and the notice of free memory are requests; an acknowledgement or an error answers one of
them, under the same reference and the other way.  The low bit of the type says which way a
message travels, which in turn selects how the transfer message inside is read.
-/

namespace ShortMessage.Relay

/-- A message of the relay layer. -/
inductive Message where
  /-- A transfer message, with the address of the service centre. -/
  | data (reference : UInt8) (centre : Address) (message : Transfer.Message)
  /-- The request was carried out. -/
  | ack (direction : Direction) (reference : UInt8) (report : Option Transfer.Message)
  /-- The request was not carried out. -/
  | error (direction : Direction) (reference : UInt8) (cause : Cause) (diagnostic : Option UInt8)
      (report : Option Transfer.Message)
  /-- The mobile station has memory again. -/
  | memoryAvailable (reference : UInt8)
  deriving DecidableEq, Repr

namespace Message

/-- The reference that ties an answer to its request. -/
def reference : Message → UInt8
  | .data reference _ _ | .ack _ reference _ | .error _ reference _ _ _
  | .memoryAvailable reference => reference

/-- The way that a message travels. -/
def direction : Message → Direction
  | .data _ _ message => message.direction
  | .ack direction _ _ | .error direction _ _ _ _ => direction
  | .memoryAvailable _ => .toCentre

/-- Does the message ask for an answer? -/
def isRequest : Message → Bool
  | .data _ _ _ | .memoryAvailable _ => true
  | .ack _ _ _ | .error _ _ _ _ _ => false

/-- The name of a message's kind. -/
def label : Message → String
  | .data _ _ _ => "RP-DATA"
  | .ack _ _ _ => "RP-ACK"
  | .error _ _ _ _ _ => "RP-ERROR"
  | .memoryAvailable _ => "RP-SMMA"

/-- The kind and the reference of a message. -/
def display (m : Message) : String := s!"{m.label} (MR {m.reference})"

/-! ## Message types -/

/-- The type of data, towards the centre. -/
def dataType : UInt8 := 0

/-- The type of an acknowledgement, towards the centre. -/
def ackType : UInt8 := 2

/-- The type of an error, towards the centre. -/
def errorType : UInt8 := 4

/-- The type of a notice of free memory. -/
def memoryAvailableType : UInt8 := 6

/-- The type of a message that travels this way. -/
def typeFor (towardsCentre : UInt8) : Direction → UInt8
  | .toCentre => towardsCentre
  | .toMobile => towardsCentre ||| 1

/-- The way that messages of this type travel. -/
def directionOf (type : UInt8) : Direction := if type &&& 1 = 0 then .toCentre else .toMobile

/-! ## What is carried -/

/-- The key of the element that carries a report. -/
def reportElement : UInt8 := 0x41

/-- A transfer message behind its length. -/
def encodeCarried (m : Transfer.Message) : Except Fault Octets := do
  lengthPrefixed "rp_user_data" (← m.encode)

/-- Reads a transfer message behind its length. -/
def carriedDecoder (direction : Direction) : Decoder Transfer.Message := do
  let s ← Decoder.block
  Decoder.ofExcept (Transfer.Message.ofOctets direction s)

/-- Only a report that travels this way can be part of an answer. -/
def checkReport (direction : Direction) (m : Transfer.Message) : Except Fault Unit :=
  if m.isReportTo direction then .ok () else .error (.field (.reportMismatch m.label))

/-- Only what is no report can be data. -/
def checkData (m : Transfer.Message) : Except Fault Unit :=
  if m.isReport then .error (.field (.reportAsData m.label)) else .ok ()

/-- The element of a report, if there is one. -/
def encodeReport (direction : Direction) : Option Transfer.Message → Except Fault Octets
  | none => .ok []
  | some m => do
    checkReport direction m
    return reportElement :: (← encodeCarried m)

/-- Reads the element of a report, which is there if any octets are left. -/
def reportDecoder (direction : Direction) : Decoder (Option Transfer.Message) := do
  let left ← Decoder.remaining
  if left = 0 then return none
  let element ← Decoder.octet
  if element ≠ reportElement then Decoder.reject (.relayElement element)
  let m ← carriedDecoder direction
  Decoder.ofExcept (checkReport direction m)
  return some m

/-- The cause and the diagnostic, behind their length. -/
def encodeCause (cause : Cause) (diagnostic : Option UInt8) : Except Fault Octets :=
  if cause.code ≤ 127 then
    match diagnostic with
    | some d => .ok [2, cause.code, d]
    | none => .ok [1, cause.code]
  else .error (.field (.relayCauseRange cause.code))

/-- Reads a cause, of which seven bits count, and the diagnostic if there is one. -/
def causeDecoder : Decoder (Cause × Option UInt8) := do
  match ← Decoder.block with
  | [cause] => return (Cause.ofCode (cause &&& 0x7F), none)
  | [cause, diagnostic] => return (Cause.ofCode (cause &&& 0x7F), some diagnostic)
  | s => Decoder.reject (.relayCauseLength s.length)

/-! ## Writing and reading -/

/-- The octets of a message.  Of the two addresses of data the mobile station's is left out. -/
def encode : Message → Except Fault Octets
  | .data reference centre message => do
    checkData message
    let address ← centre.encodeRelay
    let addresses := match message.direction with
      | .toCentre => Address.absentRelay ++ address
      | .toMobile => address ++ Address.absentRelay
    let carried ← encodeCarried message
    return [typeFor dataType message.direction, reference] ++ addresses ++ carried
  | .ack direction reference report => do
    return [typeFor ackType direction, reference] ++ (← encodeReport direction report)
  | .error direction reference cause diagnostic report => do
    let causeOctets ← encodeCause cause diagnostic
    let reportOctets ← encodeReport direction report
    return [typeFor errorType direction, reference] ++ causeOctets ++ reportOctets
  | .memoryAvailable reference => .ok [memoryAvailableType, reference]

/-- Reads the rest of data that travels this way. -/
def dataDecoder (direction : Direction) : Decoder Message := do
  let reference ← Decoder.octet
  let originator ← Address.relayDecoder
  let destination ← Address.relayDecoder
  let (centre, mobile) := match direction with
    | .toCentre => (destination, originator)
    | .toMobile => (originator, destination)
  if mobile.isSome then Decoder.reject .mobileAddressPresent
  match centre with
  | none => Decoder.reject .centreAddressMissing
  | some centre =>
    let message ← carriedDecoder direction
    Decoder.ofExcept (checkData message)
    return .data reference centre message

/-- Reads the rest of an acknowledgement that travels this way. -/
def ackDecoder (direction : Direction) : Decoder Message := do
  let reference ← Decoder.octet
  let report ← reportDecoder direction
  return .ack direction reference report

/-- Reads the rest of an error that travels this way. -/
def errorDecoder (direction : Direction) : Decoder Message := do
  let reference ← Decoder.octet
  let (cause, diagnostic) ← causeDecoder
  let report ← reportDecoder direction
  return .error direction reference cause diagnostic report

/-- Reads a message.  Only the low three bits of the first octet are its type. -/
def decoder : Decoder Message := do
  let type := (← Decoder.octet) &&& 0x07
  match type.toNat with
  | 0 | 1 => dataDecoder (directionOf type)
  | 2 | 3 => ackDecoder (directionOf type)
  | 4 | 5 => errorDecoder (directionOf type)
  | 6 => .memoryAvailable <$> Decoder.octet
  | _ => Decoder.fail (.unknownType .relay type)

/-- The message that makes up all the octets. -/
def ofOctets (s : Octets) : Except Fault Message := Decoder.complete decoder s

end Message

end ShortMessage.Relay
