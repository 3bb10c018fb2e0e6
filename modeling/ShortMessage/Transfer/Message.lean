import ShortMessage.Address.Basic
import ShortMessage.Transfer.Direction
import ShortMessage.Transfer.Parameters
import ShortMessage.Validity

/-!
# Messages of the transfer layer

The six messages that travel between a mobile station and a service centre.  The low two bits of
the first octet say which message it is, given the way it travels; the other bits are flags.  Each
kind has an encoder and a decoder, and `Transfer.Message` is any of the six.
-/

namespace ShortMessage.Transfer

/-! ## The six kinds -/

/-- A message that a mobile station hands in. -/
structure Submit where
  /-- A duplicate of a message that is still held is to be rejected. -/
  rejectDuplicates : Bool := false
  /-- A status report is wanted. -/
  statusReportRequest : Bool := false
  /-- The answer may go through the same service centre. -/
  replyPath : Bool := false
  reference : UInt8
  destination : Address
  protocol : UInt8 := 0
  coding : DataCoding := .gsm7
  validity : ValidityPeriod := .absent
  userData : UserData := {}
  deriving DecidableEq, Repr

/-- A message that a service centre delivers. -/
structure Deliver where
  /-- More messages are waiting. -/
  moreMessages : Bool := false
  loopPrevention : Bool := false
  /-- The sender will get a status report. -/
  statusReportIndication : Bool := false
  replyPath : Bool := false
  originator : Address
  protocol : UInt8 := 0
  coding : DataCoding := .gsm7
  timestamp : Timestamp
  userData : UserData := {}
  deriving DecidableEq, Repr

/-- A command about a message handed in before. -/
structure Command where
  statusReportRequest : Bool := false
  reference : UInt8
  protocol : UInt8 := 0
  commandType : UInt8
  /-- The reference of the message that the command is about. -/
  messageNumber : UInt8
  destination : Address
  commandData : UserData := {}
  deriving DecidableEq, Repr

/-- The command that asks what became of a message. -/
def Command.enquiry : UInt8 := 0

/-- The command that no status report is wanted any more. -/
def Command.cancelStatusReport : UInt8 := 1

/-- The command to delete a message. -/
def Command.delete : UInt8 := 2

/-- The command that a status report is wanted. -/
def Command.enableStatusReport : UInt8 := 3

/-- What became of a message handed in before. -/
structure StatusReport where
  moreMessages : Bool := false
  loopPrevention : Bool := false
  /-- The report answers a command. -/
  statusReportQualifier : Bool := false
  reference : UInt8
  recipient : Address
  timestamp : Timestamp
  dischargeTime : Timestamp
  status : UInt8
  parameters : Parameters := {}
  deriving DecidableEq, Repr

/-- The answer to a submit or a command. -/
structure SubmitReport where
  failureCause : Option UInt8 := none
  timestamp : Timestamp
  parameters : Parameters := {}
  deriving DecidableEq, Repr

/-- The answer to a deliver or a status report. -/
structure DeliverReport where
  failureCause : Option UInt8 := none
  parameters : Parameters := {}
  deriving DecidableEq, Repr

/-- Any message of the transfer layer. -/
inductive Message where
  | submit (m : Submit)
  | deliver (m : Deliver)
  | command (m : Command)
  | statusReport (m : StatusReport)
  | submitReport (m : SubmitReport)
  | deliverReport (m : DeliverReport)
  deriving DecidableEq, Repr

/-- Which of the six kinds a message is. -/
inductive Kind where
  | submit
  | deliver
  | command
  | statusReport
  | submitReport
  | deliverReport
  deriving DecidableEq, Repr

namespace Kind

/-- The low two bits of the first octet. -/
def typeBits : Kind → UInt8
  | .deliver | .deliverReport => 0
  | .submit | .submitReport => 1
  | .command | .statusReport => 2

/-- The way that the kind travels. -/
def direction : Kind → Direction
  | .submit | .command | .deliverReport => .toCentre
  | .deliver | .statusReport | .submitReport => .toMobile

/-- The kind with these type bits, among those that travel this way. -/
def ofTypeBits? (direction : Direction) (bits : UInt8) : Option Kind :=
  match direction, bits.toNat with
  | .toCentre, 0 => some .deliverReport
  | .toCentre, 1 => some .submit
  | .toCentre, 2 => some .command
  | .toMobile, 0 => some .deliver
  | .toMobile, 1 => some .submitReport
  | .toMobile, 2 => some .statusReport
  | _, _ => none

/-- All six kinds. -/
def all : List Kind := [.submit, .deliver, .command, .statusReport, .submitReport, .deliverReport]

/-- Is the kind one that only answers another? -/
def isReport : Kind → Bool
  | .submitReport | .deliverReport => true
  | _ => false

/-- The name of a kind. -/
def label : Kind → String
  | .submit => "SMS-SUBMIT"
  | .deliver => "SMS-DELIVER"
  | .command => "SMS-COMMAND"
  | .statusReport => "SMS-STATUS-REPORT"
  | .submitReport => "SMS-SUBMIT-REPORT"
  | .deliverReport => "SMS-DELIVER-REPORT"

end Kind

/-! ## Flags of the first octet -/

/-- The flag of a submit that duplicates are rejected. -/
def rejectDuplicatesBit : UInt8 := 0x04

/-- The flag that no more messages are waiting. -/
def noMoreMessagesBit : UInt8 := 0x04

/-- The flag that prevents loops. -/
def loopPreventionBit : UInt8 := 0x08

/-- The flag for status reports. -/
def statusReportBit : UInt8 := 0x20

/-- The flag that user data begins with a header. -/
def headerBit : UInt8 := 0x40

/-- The flag for the reply path. -/
def replyPathBit : UInt8 := 0x80

/-- Reads the first octet of a message of this kind. -/
def firstOctetDecoder (kind : Kind) : Decoder UInt8 := do
  let first ← Decoder.octet
  let actual := first &&& 0x03
  if actual ≠ kind.typeBits then
    Decoder.fail (.unexpectedType .transfer kind.typeBits actual)
  return first

/-! ## Writing and reading each kind -/

/-- The octets of a submit. -/
def Submit.encode (m : Submit) : Except Fault Octets := do
  let first := Kind.submit.typeBits ||| Bits.flag m.rejectDuplicates rejectDuplicatesBit |||
    m.validity.formatBits <<< 3 ||| Bits.flag m.statusReportRequest statusReportBit |||
    Bits.flag m.userData.hasHeader headerBit ||| Bits.flag m.replyPath replyPathBit
  let destination ← m.destination.encode
  let validity ← m.validity.encode
  let userData ← m.userData.encode m.coding.charset UserData.maxOctets
  return [first, m.reference] ++ destination ++ [m.protocol, m.coding.octet] ++ validity ++ userData

/-- Reads a submit. -/
def Submit.decoder : Decoder Submit := do
  let first ← firstOctetDecoder .submit
  let reference ← Decoder.octet
  let destination ← Address.decoder
  let protocol ← Decoder.octet
  let coding ← DataCoding.decoder
  let validity ← ValidityPeriod.decoder (first >>> 3)
  let userData ← UserData.decoder coding.charset (Bits.has first headerBit) UserData.maxOctets
  return {
    rejectDuplicates := Bits.has first rejectDuplicatesBit
    statusReportRequest := Bits.has first statusReportBit
    replyPath := Bits.has first replyPathBit
    reference, destination, protocol, coding, validity, userData }

/-- The octets of a deliver. -/
def Deliver.encode (m : Deliver) : Except Fault Octets := do
  let first := Kind.deliver.typeBits ||| Bits.flag (!m.moreMessages) noMoreMessagesBit |||
    Bits.flag m.loopPrevention loopPreventionBit |||
    Bits.flag m.statusReportIndication statusReportBit |||
    Bits.flag m.userData.hasHeader headerBit ||| Bits.flag m.replyPath replyPathBit
  let originator ← m.originator.encode
  let timestamp ← m.timestamp.encode
  let userData ← m.userData.encode m.coding.charset UserData.maxOctets
  return [first] ++ originator ++ [m.protocol, m.coding.octet] ++ timestamp ++ userData

/-- Reads a deliver. -/
def Deliver.decoder : Decoder Deliver := do
  let first ← firstOctetDecoder .deliver
  let originator ← Address.decoder
  let protocol ← Decoder.octet
  let coding ← DataCoding.decoder
  let timestamp ← Timestamp.decoder
  let userData ← UserData.decoder coding.charset (Bits.has first headerBit) UserData.maxOctets
  return {
    moreMessages := !Bits.has first noMoreMessagesBit
    loopPrevention := Bits.has first loopPreventionBit
    statusReportIndication := Bits.has first statusReportBit
    replyPath := Bits.has first replyPathBit
    originator, protocol, coding, timestamp, userData }

/-- The octets of a command.  Its data is made of octets, whatever they mean. -/
def Command.encode (m : Command) : Except Fault Octets := do
  let first := Kind.command.typeBits ||| Bits.flag m.statusReportRequest statusReportBit |||
    Bits.flag m.commandData.hasHeader headerBit
  let destination ← m.destination.encode
  let commandData ← m.commandData.encode .eightBit UserData.maxCommandOctets
  return [first, m.reference, m.protocol, m.commandType, m.messageNumber] ++ destination ++
    commandData

/-- Reads a command. -/
def Command.decoder : Decoder Command := do
  let first ← firstOctetDecoder .command
  let reference ← Decoder.octet
  let protocol ← Decoder.octet
  let commandType ← Decoder.octet
  let messageNumber ← Decoder.octet
  let destination ← Address.decoder
  let commandData ← UserData.decoder .eightBit (Bits.has first headerBit)
    UserData.maxCommandOctets
  return {
    statusReportRequest := Bits.has first statusReportBit
    reference, protocol, commandType, messageNumber, destination, commandData }

/-- The octets of a status report; the indicator is left out with the fields. -/
def StatusReport.encode (m : StatusReport) : Except Fault Octets := do
  let first := Kind.statusReport.typeBits ||| Bits.flag (!m.moreMessages) noMoreMessagesBit |||
    Bits.flag m.loopPrevention loopPreventionBit |||
    Bits.flag m.statusReportQualifier statusReportBit |||
    Bits.flag m.parameters.hasHeader headerBit
  let recipient ← m.recipient.encode
  let timestamp ← m.timestamp.encode
  let dischargeTime ← m.dischargeTime.encode
  let parameters ← if m.parameters.isEmpty then pure [] else m.parameters.encode
  return [first, m.reference] ++ recipient ++ timestamp ++ dischargeTime ++ [m.status] ++
    parameters

/-- Reads a status report; there are fields if any octets are left for them. -/
def StatusReport.decoder : Decoder StatusReport := do
  let first ← firstOctetDecoder .statusReport
  let reference ← Decoder.octet
  let recipient ← Address.decoder
  let timestamp ← Timestamp.decoder
  let dischargeTime ← Timestamp.decoder
  let status ← Decoder.octet
  let left ← Decoder.remaining
  let parameters ←
    if left = 0 then pure {} else Parameters.decoder (Bits.has first headerBit)
  return {
    moreMessages := !Bits.has first noMoreMessagesBit
    loopPrevention := Bits.has first loopPreventionBit
    statusReportQualifier := Bits.has first statusReportBit
    reference, recipient, timestamp, dischargeTime, status, parameters }

/-- The octets of a submit report.  The timestamp stands between the indicator and the fields. -/
def SubmitReport.encode (m : SubmitReport) : Except Fault Octets := do
  let first := Kind.submitReport.typeBits ||| Bits.flag m.parameters.hasHeader headerBit
  let failure ← encodeFailure m.failureCause
  let timestamp ← m.timestamp.encode
  let fields ← m.parameters.encodeFields
  return [first] ++ failure ++ [m.parameters.indicator] ++ timestamp ++ fields

/-- Reads a submit report. -/
def SubmitReport.decoder : Decoder SubmitReport := do
  let first ← firstOctetDecoder .submitReport
  let failureCause ← failureDecoder
  let indicator ← Parameters.indicatorDecoder
  let timestamp ← Timestamp.decoder
  let parameters ← Parameters.fieldsDecoder indicator (Bits.has first headerBit)
  return { failureCause, timestamp, parameters }

/-- The octets of a deliver report. -/
def DeliverReport.encode (m : DeliverReport) : Except Fault Octets := do
  let first := Kind.deliverReport.typeBits ||| Bits.flag m.parameters.hasHeader headerBit
  let failure ← encodeFailure m.failureCause
  let parameters ← m.parameters.encode
  return [first] ++ failure ++ parameters

/-- Reads a deliver report. -/
def DeliverReport.decoder : Decoder DeliverReport := do
  let first ← firstOctetDecoder .deliverReport
  let failureCause ← failureDecoder
  let parameters ← Parameters.decoder (Bits.has first headerBit)
  return { failureCause, parameters }

/-! ## Any kind -/

namespace Message

/-- The kind of a message. -/
def kind : Message → Kind
  | .submit _ => .submit
  | .deliver _ => .deliver
  | .command _ => .command
  | .statusReport _ => .statusReport
  | .submitReport _ => .submitReport
  | .deliverReport _ => .deliverReport

/-- The way that a message travels. -/
def direction (m : Message) : Direction := m.kind.direction

/-- Does the message only answer another? -/
def isReport (m : Message) : Bool := m.kind.isReport

/-- Is the message a report that travels this way? -/
def isReportTo (m : Message) (direction : Direction) : Bool :=
  m.isReport && m.direction = direction

/-- The name of a message's kind. -/
def label (m : Message) : String := m.kind.label

/-- The octets of a message. -/
def encode : Message → Except Fault Octets
  | .submit m => m.encode
  | .deliver m => m.encode
  | .command m => m.encode
  | .statusReport m => m.encode
  | .submitReport m => m.encode
  | .deliverReport m => m.encode

/-- Reads a message of one kind. -/
def decoderOf : Kind → Decoder Message
  | .submit => .submit <$> Submit.decoder
  | .deliver => .deliver <$> Deliver.decoder
  | .command => .command <$> Command.decoder
  | .statusReport => .statusReport <$> StatusReport.decoder
  | .submitReport => .submitReport <$> SubmitReport.decoder
  | .deliverReport => .deliverReport <$> DeliverReport.decoder

/-- Reads a message that travels this way. -/
def decoder (direction : Direction) : Decoder Message := do
  let first ← Decoder.peek
  match Kind.ofTypeBits? direction (first &&& 0x03) with
  | some kind => decoderOf kind
  | none => Decoder.fail (.unknownType .transfer (first &&& 0x03))

/-- The message that makes up all the octets. -/
def ofOctets (direction : Direction) (s : Octets) : Except Fault Message :=
  Decoder.complete (decoder direction) s

end Message

end ShortMessage.Transfer
