import ShortMessage.Proofs.Machine.Fields
import ShortMessage.Proofs.Machine.UserData

/-!
# Messages of the transfer layer on a machine

Each kind of message field by field, in the order in which the octets travel.  Reading agrees with
the decoders (`follows_transfer`), writing with the encoders for all that memory holds
(`writes_transfer`).
-/

namespace ShortMessage

open Transfer

/-! ## Reading -/

namespace Scanner

variable [Word] {α : Type}

section Parameters

open Transfer.Parameters

/-- Reads a field if the indicator announces it. -/
def field (announced : Bool) (m : Scanner α) : Scanner (Option α) :=
  if announced then some <$> m else pure none

/-- Reads an indicator. -/
def indicator : Scanner UInt8 := do
  let indicator ← octet
  if Bits.has indicator extensionBit then throw (.field .parametersExtended)
  return indicator

/-- Reads the fields that the indicator announces. -/
def fields (indicator : UInt8) (hasHeader : Bool) : Scanner Parameters := do
  let protocol ← field (Bits.has indicator protocolBit) octet
  let coding ← field (Bits.has indicator codingBit) dataCoding
  let userData ← field (Bits.has indicator userDataBit)
    (userData (charsetOf coding) hasHeader UserData.maxOctets)
  return { protocol, coding, userData }

/-- Reads an indicator and the fields that it announces. -/
def parameters (hasHeader : Bool) : Scanner Parameters := do
  let indicator ← indicator
  fields indicator hasHeader

/-- Reads a cause if one stands here. -/
def failure : Scanner (Option UInt8) := do
  let next ← peek
  if Bits.has next failureBit then some <$> octet else return none

omit [Word] in
/-- Whether a field is announced is known before it, so nothing is read for one that is not. -/
theorem follows_field {m : Scanner α} {d : Decoder α} (announced : Bool) (h : Follows m d) :
    Follows (field announced m) (fieldDecoder announced d) :=
  follows_ite (fun _ => h.map some) fun _ => follows_pure none

omit [Word] in
theorem follows_indicator : Follows indicator indicatorDecoder :=
  follows_octet.bind fun _ => follows_ite (fun _ => follows_throw_bind _) fun _ => follows_pure _

/-- The text of a report is read in the alphabet of the coding before it. -/
theorem follows_fields (indicator : UInt8) (hasHeader : Bool) :
    Follows (fields indicator hasHeader) (fieldsDecoder indicator hasHeader) :=
  (follows_field _ follows_octet).bind fun _ =>
    (follows_field _ follows_dataCoding).bind fun _ =>
      (follows_field _ (follows_userData _ _ _)).bind fun _ => follows_pure _

theorem follows_parameters (hasHeader : Bool) :
    Follows (parameters hasHeader) (Parameters.decoder hasHeader) :=
  follows_indicator.bind fun _ => follows_fields _ _

omit [Word] in
/-- Whether a cause stands here is seen on its octet, which is only taken if it is one. -/
theorem follows_failure : Follows failure failureDecoder :=
  follows_peek.bind fun _ =>
    follows_ite (fun _ => follows_octet.map some) fun _ => follows_pure none

end Parameters

/-- Reads the first octet of a message of this kind. -/
def firstOctet (kind : Kind) : Scanner UInt8 := do
  let first ← octet
  let actual := first &&& 0x03
  if actual ≠ kind.typeBits then throw (.unexpectedType .transfer kind.typeBits actual)
  return first

/-- Reads a submit. -/
def submit : Scanner Submit := do
  let first ← firstOctet .submit
  let reference ← octet
  let destination ← address
  let protocol ← octet
  let coding ← dataCoding
  let validity ← validity (first >>> 3)
  let userData ← userData coding.charset (Bits.has first headerBit) UserData.maxOctets
  return {
    rejectDuplicates := Bits.has first rejectDuplicatesBit
    statusReportRequest := Bits.has first statusReportBit
    replyPath := Bits.has first replyPathBit
    reference, destination, protocol, coding, validity, userData }

/-- Reads a deliver. -/
def deliver : Scanner Deliver := do
  let first ← firstOctet .deliver
  let originator ← address
  let protocol ← octet
  let coding ← dataCoding
  let timestamp ← timestamp
  let userData ← userData coding.charset (Bits.has first headerBit) UserData.maxOctets
  return {
    moreMessages := !Bits.has first noMoreMessagesBit
    loopPrevention := Bits.has first loopPreventionBit
    statusReportIndication := Bits.has first statusReportBit
    replyPath := Bits.has first replyPathBit
    originator, protocol, coding, timestamp, userData }

/-- Reads a command. -/
def command : Scanner Command := do
  let first ← firstOctet .command
  let reference ← octet
  let protocol ← octet
  let commandType ← octet
  let messageNumber ← octet
  let destination ← address
  let commandData ← userData .eightBit (Bits.has first headerBit) UserData.maxCommandOctets
  return {
    statusReportRequest := Bits.has first statusReportBit
    reference, protocol, commandType, messageNumber, destination, commandData }

/-- Reads a status report; there are fields if any octets are left for them. -/
def statusReport : Scanner StatusReport := do
  let first ← firstOctet .statusReport
  let reference ← octet
  let recipient ← address
  let timestamp' ← timestamp
  let dischargeTime ← timestamp
  let status ← octet
  let left ← remaining
  let parameters ← if left = 0 then pure {} else parameters (Bits.has first headerBit)
  return {
    moreMessages := !Bits.has first noMoreMessagesBit
    loopPrevention := Bits.has first loopPreventionBit
    statusReportQualifier := Bits.has first statusReportBit
    reference, recipient, timestamp := timestamp', dischargeTime, status, parameters }

/-- Reads a submit report. -/
def submitReport : Scanner SubmitReport := do
  let first ← firstOctet .submitReport
  let failureCause ← failure
  let indicator ← indicator
  let timestamp ← timestamp
  let parameters ← fields indicator (Bits.has first headerBit)
  return { failureCause, timestamp, parameters }

/-- Reads a deliver report. -/
def deliverReport : Scanner DeliverReport := do
  let first ← firstOctet .deliverReport
  let failureCause ← failure
  let parameters ← parameters (Bits.has first headerBit)
  return { failureCause, parameters }

/-- Reads a message of one kind. -/
def transferOf : Kind → Scanner Message
  | .submit => .submit <$> submit
  | .deliver => .deliver <$> deliver
  | .command => .command <$> command
  | .statusReport => .statusReport <$> statusReport
  | .submitReport => .submitReport <$> submitReport
  | .deliverReport => .deliverReport <$> deliverReport

/-- Reads a message that travels this way. -/
def transfer (direction : Direction) : Scanner Message := do
  let first ← peek
  match Kind.ofTypeBits? direction (first &&& 0x03) with
  | some kind => transferOf kind
  | none => throw (.unknownType .transfer (first &&& 0x03))

omit [Word] in
/-- A message of another kind is refused at its first octet. -/
theorem follows_firstOctet (kind : Kind) : Follows (firstOctet kind) (firstOctetDecoder kind) :=
  follows_octet.bind fun _ => follows_ite (fun _ => follows_throw_bind _) fun _ => follows_pure _

/-- The first octet of a submit also says which form of validity period follows. -/
theorem follows_submit : Follows submit Submit.decoder :=
  (follows_firstOctet _).bind fun _ => follows_octet.bind fun _ => follows_address.bind fun _ =>
    follows_octet.bind fun _ => follows_dataCoding.bind fun _ => (follows_validity _).bind fun _ =>
      (follows_userData _ _ _).bind fun _ => follows_pure _

theorem follows_deliver : Follows deliver Deliver.decoder :=
  (follows_firstOctet _).bind fun _ => follows_address.bind fun _ => follows_octet.bind fun _ =>
    follows_dataCoding.bind fun _ => follows_timestamp.bind fun _ =>
      (follows_userData _ _ _).bind fun _ => follows_pure _

theorem follows_command : Follows command Command.decoder :=
  (follows_firstOctet _).bind fun _ => follows_octet.bind fun _ => follows_octet.bind fun _ =>
    follows_octet.bind fun _ => follows_octet.bind fun _ => follows_address.bind fun _ =>
      (follows_userData _ _ _).bind fun _ => follows_pure _

/-- A status report may end with its status; to see that, only what is left is counted. -/
theorem follows_statusReport : Follows statusReport StatusReport.decoder :=
  (follows_firstOctet _).bind fun _ => follows_octet.bind fun _ => follows_address.bind fun _ =>
    follows_timestamp.bind fun _ => follows_timestamp.bind fun _ => follows_octet.bind fun _ =>
      follows_remaining.bind fun _ =>
        follows_ite (fun _ => (follows_pure _).bind fun _ => follows_pure _)
          fun _ => (follows_parameters _).bind fun _ => follows_pure _

/-- In a submit report the timestamp stands between the indicator and its fields. -/
theorem follows_submitReport : Follows submitReport SubmitReport.decoder :=
  (follows_firstOctet _).bind fun _ => follows_failure.bind fun _ => follows_indicator.bind fun _ =>
    follows_timestamp.bind fun _ => (follows_fields _ _).bind fun _ => follows_pure _

theorem follows_deliverReport : Follows deliverReport DeliverReport.decoder :=
  (follows_firstOctet _).bind fun _ => follows_failure.bind fun _ =>
    (follows_parameters _).bind fun _ => follows_pure _

/-- Each kind is read as its decoder reads it, without a trap. -/
theorem follows_transferOf (kind : Kind) : Follows (transferOf kind) (Message.decoderOf kind) := by
  cases kind with
  | submit => exact follows_submit.map _
  | deliver => exact follows_deliver.map _
  | command => exact follows_command.map _
  | statusReport => exact follows_statusReport.map _
  | submitReport => exact follows_submitReport.map _
  | deliverReport => exact follows_deliverReport.map _

/-- Whatever octets arrive, reading them traps nowhere and gives what the decoder gives. -/
theorem follows_transfer (direction : Direction) :
    Follows (transfer direction) (Message.decoder direction) := by
  refine follows_peek.bind fun first => ?_
  cases Kind.ofTypeBits? direction (first &&& 0x03) with
  | none => exact follows_throw _
  | some kind => exact follows_transferOf kind

end Scanner

/-! ## Writing -/

namespace Machine

/-- Memory holds the address of the message. -/
def Holds [Word] : Message → Prop
  | .submit m => InMemory m.destination
  | .deliver m => InMemory m.originator
  | .command m => InMemory m.destination
  | .statusReport m => InMemory m.recipient
  | .submitReport _ | .deliverReport _ => True

end Machine

namespace Printer

open Machine

variable [Word]

section Parameters

open Transfer.Parameters

/-- Writes an octet that may be left out. -/
def option : Option UInt8 → Printer Unit
  | none => pure ()
  | some b => put [b]

/-- Writes the fields that the indicator announces. -/
def fields (p : Parameters) : Printer Unit := do
  option p.protocol
  option (p.coding.map DataCoding.octet)
  match p.userData with
  | none => pure ()
  | some u => userData u (charsetOf p.coding) UserData.maxOctets

/-- Writes the indicator and the fields that it announces. -/
def parameters (p : Parameters) : Printer Unit := do
  put [p.indicator]
  fields p

/-- Writes a cause, if there is one. -/
def failure : Option UInt8 → Printer Unit
  | none => pure ()
  | some cause =>
    if Bits.has cause failureBit then put [cause] else throw (.field (.failureCause cause))

omit [Word] in
theorem writes_option (b? : Option UInt8) : Writes [] (option b?) (.ok b?.toList) := by
  cases b? with
  | none => exact writes_pure
  | some b => exact writes_put [b]

/-- User data as every message but a command has it. -/
theorem writes_message (u : UserData) (charset : CharacterSet) :
    Writes [] (userData u charset UserData.maxOctets) (u.encode charset UserData.maxOctets) :=
  writes_userData (UserData.admits_message charset)

/-- The fields are written one behind the other, and nothing for one that is left out. -/
theorem writes_fields (p : Parameters) : Writes [] (fields p) p.encodeFields := by
  obtain ⟨protocol, coding, u | u⟩ := p
  all_goals refine Writes.write (writes_option _) (Writes.write (writes_option _) ?_)
  · show Writes _ _ (.ok (_ ++ []))
    rw [List.append_nil]
    exact writes_pure
  · exact Writes.last (writes_message u _) fun s _ => by simp

theorem writes_parameters (p : Parameters) : Writes [] (parameters p) p.encode :=
  Writes.put (Writes.last (writes_fields p) fun _ _ => rfl)

omit [Word] in
/-- A cause that its reader would take for an indicator is refused before it is written. -/
theorem writes_failure (cause? : Option UInt8) :
    Writes [] (failure cause?) (encodeFailure cause?) := by
  cases cause? with
  | none => exact writes_pure
  | some cause => exact writes_ite (fun _ => writes_put [cause]) fun _ => writes_throw _

end Parameters

/-- Writes a submit. -/
def submit (m : Submit) : Printer Unit := do
  put [m.firstOctet]
  put [m.reference]
  address m.destination
  put [m.protocol]
  put [m.coding.octet]
  validity m.validity
  userData m.userData m.coding.charset UserData.maxOctets

/-- Writes a deliver. -/
def deliver (m : Deliver) : Printer Unit := do
  put [m.firstOctet]
  address m.originator
  put [m.protocol]
  put [m.coding.octet]
  timestamp m.timestamp
  userData m.userData m.coding.charset UserData.maxOctets

/-- Writes a command. -/
def command (m : Command) : Printer Unit := do
  put [m.firstOctet]
  put [m.reference]
  put [m.protocol]
  put [m.commandType]
  put [m.messageNumber]
  address m.destination
  userData m.commandData .eightBit UserData.maxCommandOctets

/-- Writes a status report. -/
def statusReport (m : StatusReport) : Printer Unit := do
  put [m.firstOctet]
  put [m.reference]
  address m.recipient
  timestamp m.timestamp
  timestamp m.dischargeTime
  put [m.status]
  if m.parameters.isEmpty then pure () else parameters m.parameters

/-- Writes a submit report. -/
def submitReport (m : SubmitReport) : Printer Unit := do
  put [reportOctet .submitReport m.parameters]
  failure m.failureCause
  put [m.parameters.indicator]
  timestamp m.timestamp
  fields m.parameters

/-- Writes a deliver report. -/
def deliverReport (m : DeliverReport) : Printer Unit := do
  put [reportOctet .deliverReport m.parameters]
  failure m.failureCause
  parameters m.parameters

/-- Writes a message. -/
def transfer : Message → Printer Unit
  | .submit m => submit m
  | .deliver m => deliver m
  | .command m => command m
  | .statusReport m => statusReport m
  | .submitReport m => submitReport m
  | .deliverReport m => deliverReport m

/-- The address is the only part of a submit whose size nothing bounds but memory. -/
theorem writes_submit {m : Submit} (h : InMemory m.destination) :
    Writes [] (submit m) m.encode := by
  refine Writes.put (Writes.put (Writes.part (writes_address h) fun destination _ => ?_))
  refine Writes.put (Writes.put (Writes.part (writes_validity _) fun validity _ => ?_))
  exact Writes.last (writes_message _ _) fun userData _ => by simp [Submit.firstOctet]

theorem writes_deliver {m : Deliver} (h : InMemory m.originator) :
    Writes [] (deliver m) m.encode := by
  refine Writes.put (Writes.part (writes_address h) fun originator _ => ?_)
  refine Writes.put (Writes.put (Writes.part (writes_timestamp _) fun timestamp _ => ?_))
  exact Writes.last (writes_message _ _) fun userData _ => by simp [Deliver.firstOctet]

/-- The data of a command are octets and have a limit of their own. -/
theorem writes_command {m : Command} (h : InMemory m.destination) :
    Writes [] (command m) m.encode := by
  refine Writes.put (Writes.put (Writes.put (Writes.put (Writes.put ?_))))
  refine Writes.part (writes_address h) fun destination _ => ?_
  exact Writes.last (writes_userData UserData.admits_command) fun commandData _ => by
    simp [Command.firstOctet]

/-- A status report without fields ends with its status and has no indicator. -/
theorem writes_statusReport {m : StatusReport} (h : InMemory m.recipient) :
    Writes [] (statusReport m) m.encode := by
  refine Writes.put (Writes.put (Writes.part (writes_address h) fun recipient _ => ?_))
  refine Writes.part (writes_timestamp _) fun timestamp _ => ?_
  refine Writes.part (writes_timestamp _) fun dischargeTime _ => Writes.put ?_
  refine writes_ite (fun _ => ?_) fun _ => ?_
  · show Writes _ _ (.ok _)
    rw [List.append_nil]
    exact writes_pure
  · exact Writes.last (writes_parameters _) fun parameters _ => by simp [StatusReport.firstOctet]

/-- Reports carry no address, so nothing is asked about memory. -/
theorem writes_submitReport (m : SubmitReport) : Writes [] (submitReport m) m.encode := by
  refine Writes.put (Writes.part (writes_failure _) fun failure _ => Writes.put ?_)
  refine Writes.part (writes_timestamp _) fun timestamp _ => ?_
  exact Writes.last (writes_fields _) fun fields _ => by simp [reportOctet]

theorem writes_deliverReport (m : DeliverReport) : Writes [] (deliverReport m) m.encode := by
  refine Writes.put (Writes.part (writes_failure _) fun failure _ => ?_)
  exact Writes.last (writes_parameters _) fun parameters _ => by simp [reportOctet]

/-- What memory holds is written as the encoder writes it, or refused with its error, without a
trap. -/
theorem writes_transfer {m : Message} (h : Holds m) : Writes [] (transfer m) m.encode := by
  cases m with
  | submit m => exact writes_submit h
  | deliver m => exact writes_deliver h
  | command m => exact writes_command h
  | statusReport m => exact writes_statusReport h
  | submitReport m => exact writes_submitReport m
  | deliverReport m => exact writes_deliverReport m

end Printer

end ShortMessage
