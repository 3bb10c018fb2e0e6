import ShortMessage.Proofs.Codec.Address
import ShortMessage.Proofs.Codec.Parameters
import ShortMessage.Transfer.Message

/-!
# Messages of the transfer layer are read back

Whatever is written of a transfer message is read as what a reader finds of it, `Message.reread`
(`Message.ofOctets_of_encode`), which differs from the message in its address, its user data and its
header only and is written as the same octets.  The flags that say how to go on stand in the first
octet, for the forms of a validity period and the header, and in the indicator of a report; what
they say is decided once for each kind.
-/

namespace ShortMessage.Transfer

open Decoder

variable {s : Octets}

/-- Only the low two bits tell the kind; the flags above them do not matter. -/
theorem reads_firstOctet {kind : Kind} {first : UInt8} (h : first &&& 0x03 = kind.typeBits) :
    Reads (firstOctetDecoder kind) [first] first :=
  (reads_octet first).last (Reads.unless (fun hne => hne h) (reads_pure first))

/-! ## Submits -/

namespace Submit

variable {m : Submit}

/-- A submit as a reader finds it. -/
def reread (m : Submit) : Submit :=
  { m with
    destination := m.destination.reread
    userData := m.userData.reread m.coding.charset UserData.maxOctets }

/-- The first octet of a submit. -/
def firstOctet (m : Submit) : UInt8 :=
  Kind.submit.typeBits ||| Bits.flag m.rejectDuplicates rejectDuplicatesBit |||
    m.validity.formatBits <<< 3 ||| Bits.flag m.statusReportRequest statusReportBit |||
    Bits.flag m.userData.hasHeader headerBit ||| Bits.flag m.replyPath replyPathBit

/-- Type, form of the period and flags share an octet without touching one another. -/
theorem firstOctet_bits (m : Submit) : m.firstOctet &&& 0x03 = Kind.submit.typeBits ∧
    (m.firstOctet >>> 3).toNat % 4 = m.validity.formatBits.toNat ∧
    Bits.has m.firstOctet headerBit = m.userData.hasHeader ∧
    Bits.has m.firstOctet rejectDuplicatesBit = m.rejectDuplicates ∧
    Bits.has m.firstOctet statusReportBit = m.statusReportRequest ∧
    Bits.has m.firstOctet replyPathBit = m.replyPath := by
  unfold firstOctet
  generalize m.rejectDuplicates = rejectDuplicates
  generalize m.statusReportRequest = statusReportRequest
  generalize m.userData.hasHeader = hasHeader
  generalize m.replyPath = replyPath
  cases m.validity <;> simp only [ValidityPeriod.formatBits] <;> decide +revert

/-- A submit can be written exactly if each of its parts can. -/
theorem encode_eq_ok : m.encode = .ok s ↔
    ∃ destination, m.destination.encode = .ok destination ∧
    ∃ validity, m.validity.encode = .ok validity ∧
    ∃ userData, m.userData.encode m.coding.charset UserData.maxOctets = .ok userData ∧
      s = [m.firstOctet, m.reference] ++ destination ++ [m.protocol, m.coding.octet] ++ validity ++
        userData := by
  simp only [encode, bind_eq_ok, pure_eq_ok, firstOctet]

/-- A submit as a reader finds it has the octets that were read. -/
theorem encode_reread (h : m.encode = .ok s) : m.reread.encode = .ok s := by
  obtain ⟨destination, hd, validity, hv, userData, hu, rfl⟩ := encode_eq_ok.1 h
  refine encode_eq_ok.2 ⟨destination, Address.encode_reread hd, validity, hv, userData,
    UserData.encode_reread hu, ?_⟩
  simp [firstOctet, reread]

theorem length_encode (h : m.encode = .ok s) : s.length ≤ 164 := by
  obtain ⟨destination, hd, validity, hv, userData, hu, rfl⟩ := encode_eq_ok.1 h
  have haddress := Address.length_encode hd
  have hperiod := ValidityPeriod.length_encode hv
  have hdata := UserData.length_message hu
  unfold Address.maxOctets UserData.maxOctets at *
  simp only [List.length_append, List.length_cons, List.length_nil]
  omega

theorem reads_submit (h : m.encode = .ok s) : Reads decoder s m.reread := by
  obtain ⟨destination, hd, validity, hv, userData, hu, rfl⟩ := encode_eq_ok.1 h
  obtain ⟨htype, hformat, hheader, hduplicates, hreport, hreply⟩ := m.firstOctet_bits
  have hdata := UserData.reads_message hu
  rw [← hheader] at hdata
  have hs : [m.firstOctet, m.reference] ++ destination ++ [m.protocol, m.coding.octet] ++
      validity ++ userData = [m.firstOctet] ++ ([m.reference] ++ (destination ++ ([m.protocol] ++
        ([m.coding.octet] ++ (validity ++ userData))))) := by simp
  rw [hs]
  refine Reads.bind (reads_firstOctet htype) (Reads.bind (reads_octet _) (Reads.bind
    (Address.reads_address hd) (Reads.bind (reads_octet _) (Reads.bind (reads_dataCoding _)
      (Reads.bind (reads_validity hv hformat) (hdata.last (reads_pure_of_eq ?_)))))))
  rw [hduplicates, hreport, hreply, reread]

end Submit

/-! ## Delivers -/

namespace Deliver

variable {m : Deliver}

/-- A deliver as a reader finds it. -/
def reread (m : Deliver) : Deliver :=
  { m with
    originator := m.originator.reread
    userData := m.userData.reread m.coding.charset UserData.maxOctets }

/-- The first octet of a deliver. -/
def firstOctet (m : Deliver) : UInt8 :=
  Kind.deliver.typeBits ||| Bits.flag (!m.moreMessages) noMoreMessagesBit |||
    Bits.flag m.loopPrevention loopPreventionBit |||
    Bits.flag m.statusReportIndication statusReportBit |||
    Bits.flag m.userData.hasHeader headerBit ||| Bits.flag m.replyPath replyPathBit

theorem firstOctet_bits (m : Deliver) : m.firstOctet &&& 0x03 = Kind.deliver.typeBits ∧
    Bits.has m.firstOctet headerBit = m.userData.hasHeader ∧
    (!Bits.has m.firstOctet noMoreMessagesBit) = m.moreMessages ∧
    Bits.has m.firstOctet loopPreventionBit = m.loopPrevention ∧
    Bits.has m.firstOctet statusReportBit = m.statusReportIndication ∧
    Bits.has m.firstOctet replyPathBit = m.replyPath := by
  unfold firstOctet
  generalize m.moreMessages = moreMessages
  generalize m.loopPrevention = loopPrevention
  generalize m.statusReportIndication = statusReportIndication
  generalize m.userData.hasHeader = hasHeader
  generalize m.replyPath = replyPath
  decide +revert

theorem encode_eq_ok : m.encode = .ok s ↔
    ∃ originator, m.originator.encode = .ok originator ∧
    ∃ timestamp, m.timestamp.encode = .ok timestamp ∧
    ∃ userData, m.userData.encode m.coding.charset UserData.maxOctets = .ok userData ∧
      s = [m.firstOctet] ++ originator ++ [m.protocol, m.coding.octet] ++ timestamp ++
        userData := by
  simp only [encode, bind_eq_ok, pure_eq_ok, firstOctet]

theorem encode_reread (h : m.encode = .ok s) : m.reread.encode = .ok s := by
  obtain ⟨originator, ho, timestamp, ht, userData, hu, rfl⟩ := encode_eq_ok.1 h
  refine encode_eq_ok.2 ⟨originator, Address.encode_reread ho, timestamp, ht, userData,
    UserData.encode_reread hu, ?_⟩
  simp [firstOctet, reread]

theorem length_encode (h : m.encode = .ok s) : s.length ≤ 163 := by
  obtain ⟨originator, ho, timestamp, ht, userData, hu, rfl⟩ := encode_eq_ok.1 h
  have haddress := Address.length_encode ho
  have htime := Timestamp.length_encode ht
  have hdata := UserData.length_message hu
  unfold Address.maxOctets Timestamp.octetCount UserData.maxOctets at *
  simp only [List.length_append, List.length_cons, List.length_nil]
  omega

theorem reads_deliver (h : m.encode = .ok s) : Reads decoder s m.reread := by
  obtain ⟨originator, ho, timestamp, ht, userData, hu, rfl⟩ := encode_eq_ok.1 h
  obtain ⟨htype, hheader, hmore, hloop, hreport, hreply⟩ := m.firstOctet_bits
  have hdata := UserData.reads_message hu
  rw [← hheader] at hdata
  have hs : [m.firstOctet] ++ originator ++ [m.protocol, m.coding.octet] ++ timestamp ++
      userData = [m.firstOctet] ++ (originator ++ ([m.protocol] ++ ([m.coding.octet] ++
        (timestamp ++ userData)))) := by simp
  rw [hs]
  refine Reads.bind (reads_firstOctet htype) (Reads.bind (Address.reads_address ho) (Reads.bind
    (reads_octet _) (Reads.bind (reads_dataCoding _) (Reads.bind (reads_timestamp ht)
      (hdata.last (reads_pure_of_eq ?_))))))
  rw [hmore, hloop, hreport, hreply, reread]

end Deliver

/-! ## Commands -/

namespace Command

variable {m : Command}

/-- A command as a reader finds it. -/
def reread (m : Command) : Command :=
  { m with
    destination := m.destination.reread
    commandData := m.commandData.reread .eightBit UserData.maxCommandOctets }

/-- The first octet of a command. -/
def firstOctet (m : Command) : UInt8 :=
  Kind.command.typeBits ||| Bits.flag m.statusReportRequest statusReportBit |||
    Bits.flag m.commandData.hasHeader headerBit

theorem firstOctet_bits (m : Command) : m.firstOctet &&& 0x03 = Kind.command.typeBits ∧
    Bits.has m.firstOctet headerBit = m.commandData.hasHeader ∧
    Bits.has m.firstOctet statusReportBit = m.statusReportRequest := by
  unfold firstOctet
  generalize m.statusReportRequest = statusReportRequest
  generalize m.commandData.hasHeader = hasHeader
  decide +revert

theorem encode_eq_ok : m.encode = .ok s ↔
    ∃ destination, m.destination.encode = .ok destination ∧
    ∃ commandData, m.commandData.encode .eightBit UserData.maxCommandOctets = .ok commandData ∧
      s = [m.firstOctet, m.reference, m.protocol, m.commandType, m.messageNumber] ++
        destination ++ commandData := by
  simp only [encode, bind_eq_ok, pure_eq_ok, firstOctet]

theorem encode_reread (h : m.encode = .ok s) : m.reread.encode = .ok s := by
  obtain ⟨destination, hd, commandData, hu, rfl⟩ := encode_eq_ok.1 h
  refine encode_eq_ok.2 ⟨destination, Address.encode_reread hd, commandData,
    UserData.encode_reread hu, ?_⟩
  simp [firstOctet, reread]

theorem length_encode (h : m.encode = .ok s) : s.length ≤ 175 := by
  obtain ⟨destination, hd, commandData, hu, rfl⟩ := encode_eq_ok.1 h
  have haddress := Address.length_encode hd
  have hdata := UserData.length_command hu
  unfold Address.maxOctets UserData.maxCommandOctets at *
  simp only [List.length_append, List.length_cons, List.length_nil]
  omega

theorem reads_command (h : m.encode = .ok s) : Reads decoder s m.reread := by
  obtain ⟨destination, hd, commandData, hu, rfl⟩ := encode_eq_ok.1 h
  obtain ⟨htype, hheader, hreport⟩ := m.firstOctet_bits
  have hdata := UserData.reads_command hu
  rw [← hheader] at hdata
  have hs : [m.firstOctet, m.reference, m.protocol, m.commandType, m.messageNumber] ++
      destination ++ commandData = [m.firstOctet] ++ ([m.reference] ++ ([m.protocol] ++
        ([m.commandType] ++ ([m.messageNumber] ++ (destination ++ commandData))))) := by simp
  rw [hs]
  refine Reads.bind (reads_firstOctet htype) (Reads.bind (reads_octet _) (Reads.bind
    (reads_octet _) (Reads.bind (reads_octet _) (Reads.bind (reads_octet _) (Reads.bind
      (Address.reads_address hd) (hdata.last (reads_pure_of_eq ?_)))))))
  rw [hreport, reread]

end Command

/-! ## Status reports -/

namespace StatusReport

variable {m : StatusReport}

/-- A status report as a reader finds it. -/
def reread (m : StatusReport) : StatusReport :=
  { m with
    recipient := m.recipient.reread
    parameters := m.parameters.reread }

/-- The first octet of a status report. -/
def firstOctet (m : StatusReport) : UInt8 :=
  Kind.statusReport.typeBits ||| Bits.flag (!m.moreMessages) noMoreMessagesBit |||
    Bits.flag m.loopPrevention loopPreventionBit |||
    Bits.flag m.statusReportQualifier statusReportBit |||
    Bits.flag m.parameters.hasHeader headerBit

theorem firstOctet_bits (m : StatusReport) :
    m.firstOctet &&& 0x03 = Kind.statusReport.typeBits ∧
    Bits.has m.firstOctet headerBit = m.parameters.hasHeader ∧
    (!Bits.has m.firstOctet noMoreMessagesBit) = m.moreMessages ∧
    Bits.has m.firstOctet loopPreventionBit = m.loopPrevention ∧
    Bits.has m.firstOctet statusReportBit = m.statusReportQualifier := by
  unfold firstOctet
  generalize m.moreMessages = moreMessages
  generalize m.loopPrevention = loopPrevention
  generalize m.statusReportQualifier = statusReportQualifier
  generalize m.parameters.hasHeader = hasHeader
  decide +revert

/-- The fields of a status report, which are left out with their indicator if there are none. -/
def encodeParameters (p : Parameters) : Except Fault Octets :=
  if p.isEmpty then pure [] else p.encode

theorem encodeParameters_reread {p : Parameters} (h : encodeParameters p = .ok s) :
    encodeParameters p.reread = .ok s := by
  unfold encodeParameters at *
  rw [Parameters.isEmpty_reread]
  split at h
  · rwa [if_pos ‹_›]
  · rw [if_neg ‹_›]
    exact Parameters.encode_reread h

/-- Besides user data there are an indicator, a protocol, a coding and a length. -/
theorem length_encodeParameters {p : Parameters} (h : encodeParameters p = .ok s) :
    s.length ≤ UserData.maxOctets + 4 := by
  unfold encodeParameters at h
  split at h
  · cases h
    exact Nat.zero_le _
  · exact Parameters.length_encode h

theorem encode_eq_ok : m.encode = .ok s ↔
    ∃ recipient, m.recipient.encode = .ok recipient ∧
    ∃ timestamp, m.timestamp.encode = .ok timestamp ∧
    ∃ dischargeTime, m.dischargeTime.encode = .ok dischargeTime ∧
    ∃ parameters, encodeParameters m.parameters = .ok parameters ∧
      s = [m.firstOctet, m.reference] ++ recipient ++ timestamp ++ dischargeTime ++ [m.status] ++
        parameters := by
  unfold encode encodeParameters
  split <;> simp only [bind_eq_ok, pure_eq_ok, firstOctet, exists_eq_left, pure_bind]

theorem encode_reread (h : m.encode = .ok s) : m.reread.encode = .ok s := by
  obtain ⟨recipient, hr, timestamp, ht, dischargeTime, hd, parameters, hp, rfl⟩ := encode_eq_ok.1 h
  refine encode_eq_ok.2 ⟨recipient, Address.encode_reread hr, timestamp, ht, dischargeTime, hd,
    parameters, encodeParameters_reread hp, ?_⟩
  simp [firstOctet, reread]

theorem length_encode (h : m.encode = .ok s) : s.length ≤ 173 := by
  obtain ⟨recipient, hr, timestamp, ht, dischargeTime, hd, parameters, hp, rfl⟩ := encode_eq_ok.1 h
  have haddress := Address.length_encode hr
  have htime := Timestamp.length_encode ht
  have hdischarge := Timestamp.length_encode hd
  have hparameters := length_encodeParameters hp
  unfold Address.maxOctets Timestamp.octetCount UserData.maxOctets at *
  simp only [List.length_append, List.length_cons, List.length_nil]
  omega

/-- The fields are there if any octets are left for them. -/
theorem readsAll_parameters {α : Type} {p : Parameters} {f : Parameters → Decoder α} {a : α}
    (h : encodeParameters p = .ok s) (hf : ReadsAll (f p.reread) [] a) :
    ReadsAll (do
      let left ← Decoder.remaining
      if left = 0 then pure {} >>= f else Parameters.decoder p.hasHeader >>= f) s a := by
  unfold encodeParameters at h
  refine ReadsAll.remaining ?_
  split at h
  · rename_i hempty
    cases h
    rw [Parameters.eq_empty hempty] at hf
    exact ReadsAll.when rfl ((reads_pure _).last_all hf)
  · obtain ⟨fields, -, rfl⟩ := Parameters.encode_eq_ok.1 h
    exact ReadsAll.unless (Nat.succ_ne_zero _) ((Parameters.reads_parameters h).last_all hf)

/-- A status report ends where its fields begin if it has none. -/
theorem readsAll_statusReport (h : m.encode = .ok s) : ReadsAll decoder s m.reread := by
  obtain ⟨recipient, hr, timestamp, ht, dischargeTime, hd, parameters, hp, rfl⟩ := encode_eq_ok.1 h
  obtain ⟨htype, hheader, hmore, hloop, hqualifier⟩ := m.firstOctet_bits
  have hs : [m.firstOctet, m.reference] ++ recipient ++ timestamp ++ dischargeTime ++ [m.status] ++
      parameters = [m.firstOctet] ++ ([m.reference] ++ (recipient ++ (timestamp ++
        (dischargeTime ++ ([m.status] ++ parameters))))) := by simp
  rw [hs]
  refine Reads.bind_all (reads_firstOctet htype) (Reads.bind_all (reads_octet _) (Reads.bind_all
    (Address.reads_address hr) (Reads.bind_all (reads_timestamp ht) (Reads.bind_all
      (reads_timestamp hd) (Reads.bind_all (reads_octet _) ?_)))))
  rw [hheader]
  refine readsAll_parameters hp (reads_pure_of_eq ?_).all
  rw [hmore, hloop, hqualifier, reread]

end StatusReport

/-! ## Reports -/

/-- The first octet of a report. -/
def reportOctet (kind : Kind) (p : Parameters) : UInt8 :=
  kind.typeBits ||| Bits.flag p.hasHeader headerBit

/-- The first octet of a report has its type, and says whether a header comes. -/
theorem reportOctet_bits (kind : Kind) (p : Parameters) :
    reportOctet kind p &&& 0x03 = kind.typeBits ∧
    Bits.has (reportOctet kind p) headerBit = p.hasHeader := by
  unfold reportOctet
  generalize p.hasHeader = hasHeader
  cases kind <;> decide +revert

@[simp] theorem reportOctet_reread (kind : Kind) (p : Parameters) :
    reportOctet kind p.reread = reportOctet kind p := by
  rw [reportOctet, Parameters.hasHeader_reread, reportOctet]

theorem length_encodeFailure {cause : Option UInt8} (h : encodeFailure cause = .ok s) :
    s.length ≤ 1 := by
  obtain ⟨-, rfl⟩ := encodeFailure_eq_ok.1 h
  cases cause <;> simp

namespace SubmitReport

variable {m : SubmitReport}

/-- A submit report as a reader finds it. -/
def reread (m : SubmitReport) : SubmitReport := { m with parameters := m.parameters.reread }

theorem encode_eq_ok : m.encode = .ok s ↔
    ∃ failure, encodeFailure m.failureCause = .ok failure ∧
    ∃ timestamp, m.timestamp.encode = .ok timestamp ∧
    ∃ fields, m.parameters.encodeFields = .ok fields ∧
      s = [reportOctet .submitReport m.parameters] ++ failure ++ [m.parameters.indicator] ++
        timestamp ++ fields := by
  simp only [encode, bind_eq_ok, pure_eq_ok, reportOctet]

theorem encode_reread (h : m.encode = .ok s) : m.reread.encode = .ok s := by
  obtain ⟨failure, hf, timestamp, ht, fields, hp, rfl⟩ := encode_eq_ok.1 h
  refine encode_eq_ok.2 ⟨failure, hf, timestamp, ht, fields, Parameters.encodeFields_reread hp, ?_⟩
  simp [reread]

theorem length_encode (h : m.encode = .ok s) : s.length ≤ 153 := by
  obtain ⟨failure, hf, timestamp, ht, fields, hp, rfl⟩ := encode_eq_ok.1 h
  have hfailure := length_encodeFailure hf
  have htime := Timestamp.length_encode ht
  have hfields := Parameters.length_encodeFields hp
  unfold Timestamp.octetCount UserData.maxOctets at *
  simp only [List.length_append, List.length_cons, List.length_nil]
  omega

theorem reads_submitReport (h : m.encode = .ok s) : Reads decoder s m.reread := by
  obtain ⟨failure, hf, timestamp, ht, fields, hp, rfl⟩ := encode_eq_ok.1 h
  obtain ⟨htype, hheader⟩ := reportOctet_bits .submitReport m.parameters
  have hfields := Parameters.reads_fields hp
  rw [← hheader] at hfields
  have hs : [reportOctet .submitReport m.parameters] ++ failure ++ [m.parameters.indicator] ++
      timestamp ++ fields = [reportOctet .submitReport m.parameters] ++
        (failure ++ m.parameters.indicator :: (timestamp ++ fields)) := by simp
  rw [hs]
  exact Reads.bind (reads_firstOctet htype) (reads_failure hf m.parameters.indicator_bits.2.2.2.2
    (Reads.bind (Parameters.reads_indicator _) (Reads.bind (reads_timestamp ht)
      (hfields.last (reads_pure _)))))

end SubmitReport

namespace DeliverReport

variable {m : DeliverReport}

/-- A deliver report as a reader finds it. -/
def reread (m : DeliverReport) : DeliverReport := { m with parameters := m.parameters.reread }

theorem encode_eq_ok : m.encode = .ok s ↔
    ∃ failure, encodeFailure m.failureCause = .ok failure ∧
    ∃ parameters, m.parameters.encode = .ok parameters ∧
      s = [reportOctet .deliverReport m.parameters] ++ failure ++ parameters := by
  simp only [encode, bind_eq_ok, pure_eq_ok, reportOctet]

theorem encode_reread (h : m.encode = .ok s) : m.reread.encode = .ok s := by
  obtain ⟨failure, hf, parameters, hp, rfl⟩ := encode_eq_ok.1 h
  refine encode_eq_ok.2 ⟨failure, hf, parameters, Parameters.encode_reread hp, ?_⟩
  simp [reread]

theorem length_encode (h : m.encode = .ok s) : s.length ≤ 146 := by
  obtain ⟨failure, hf, parameters, hp, rfl⟩ := encode_eq_ok.1 h
  have hfailure := length_encodeFailure hf
  have hfields := Parameters.length_encode hp
  unfold UserData.maxOctets at hfields
  simp only [List.length_append, List.length_cons, List.length_nil]
  omega

theorem reads_deliverReport (h : m.encode = .ok s) : Reads decoder s m.reread := by
  obtain ⟨failure, hf, parameters, hp, rfl⟩ := encode_eq_ok.1 h
  obtain ⟨htype, hheader⟩ := reportOctet_bits .deliverReport m.parameters
  have hread := Parameters.reads_parameters hp
  rw [← hheader] at hread
  obtain ⟨fields, -, rfl⟩ := Parameters.encode_eq_ok.1 hp
  rw [List.append_assoc]
  exact Reads.bind (reads_firstOctet htype) (reads_failure hf m.parameters.indicator_bits.2.2.2.2
    (hread.last (reads_pure _)))

end DeliverReport

/-! ## Any kind -/

/-- Kinds that share a type travel in different directions. -/
theorem Kind.ofTypeBits?_typeBits (kind : Kind) :
    ofTypeBits? kind.direction kind.typeBits = some kind := by
  cases kind <;> rfl

namespace Message

variable {m : Message}

/-- A message as a reader finds it: its address with four bits of the numbering plan, the elements
of its header as their keys and values say, and of its text the longest part that fits. -/
def reread : Message → Message
  | .submit m => .submit m.reread
  | .deliver m => .deliver m.reread
  | .command m => .command m.reread
  | .statusReport m => .statusReport m.reread
  | .submitReport m => .submitReport m.reread
  | .deliverReport m => .deliverReport m.reread

@[simp] theorem kind_reread (m : Message) : m.reread.kind = m.kind := by
  cases m <;> rfl

@[simp] theorem direction_reread (m : Message) : m.reread.direction = m.direction := by
  rw [direction, kind_reread, direction]

@[simp] theorem isReport_reread (m : Message) : m.reread.isReport = m.isReport := by
  rw [isReport, kind_reread, isReport]

/-- What a reader finds is written as the same octets. -/
theorem encode_reread (h : m.encode = .ok s) : m.reread.encode = .ok s := by
  cases m with
  | submit m => exact Submit.encode_reread h
  | deliver m => exact Deliver.encode_reread h
  | command m => exact Command.encode_reread h
  | statusReport m => exact StatusReport.encode_reread h
  | submitReport m => exact SubmitReport.encode_reread h
  | deliverReport m => exact DeliverReport.encode_reread h

/-- The longest message is a command. -/
theorem length_encode (h : m.encode = .ok s) : s.length ≤ 175 := by
  cases m with
  | submit m => exact (Submit.length_encode h).trans (by decide)
  | deliver m => exact (Deliver.length_encode h).trans (by decide)
  | command m => exact Command.length_encode h
  | statusReport m => exact (StatusReport.length_encode h).trans (by decide)
  | submitReport m => exact (SubmitReport.length_encode h).trans (by decide)
  | deliverReport m => exact (DeliverReport.length_encode h).trans (by decide)

/-- Octets that are read as a kind begin with its type. -/
theorem starts_of_readsAll {α : Type} {kind : Kind} {f : UInt8 → Decoder α} {a : α}
    (h : ReadsAll (firstOctetDecoder kind >>= f) s a) :
    ∃ first rest, s = first :: rest ∧ first &&& 0x03 = kind.typeBits := by
  cases s with
  | nil => cases h
  | cons first rest =>
    refine ⟨first, rest, rfl, Decidable.byContradiction fun hne => ?_⟩
    have hfail : firstOctetDecoder kind (first :: rest) =
        .error (.unexpectedType .transfer kind.typeBits (first &&& 0x03)) := by
      show (if first &&& 0x03 ≠ kind.typeBits then (do
        let _ ← Decoder.fail (.unexpectedType .transfer kind.typeBits (first &&& 0x03))
        pure first) else pure first : Decoder UInt8) rest = _
      rw [if_pos hne]
      rfl
    rw [ReadsAll, bind_apply, hfail] at h
    cases h

/-- Octets that are read as a kind are a message that travels the way of this kind. -/
theorem ofOctets_of_readsAll {α : Type} (kind : Kind) {f : UInt8 → Decoder α} (g : α → Message)
    {a : α} (hd : decoderOf kind = g <$> (firstOctetDecoder kind >>= f))
    (h : ReadsAll (firstOctetDecoder kind >>= f) s a) :
    ofOctets kind.direction s = .ok (g a) := by
  obtain ⟨first, rest, rfl, htype⟩ := starts_of_readsAll h
  refine ReadsAll.complete (ReadsAll.peek ?_)
  rw [htype, Kind.ofTypeBits?_typeBits]
  show ReadsAll (decoderOf kind) _ _
  rw [hd]
  exact h.map g

/-- What is written of a message is read as a reader finds it. -/
theorem ofOctets_of_encode (h : m.encode = .ok s) : ofOctets m.direction s = .ok m.reread := by
  cases m with
  | submit m => exact ofOctets_of_readsAll .submit .submit rfl (Submit.reads_submit h).all
  | deliver m => exact ofOctets_of_readsAll .deliver .deliver rfl (Deliver.reads_deliver h).all
  | command m => exact ofOctets_of_readsAll .command .command rfl (Command.reads_command h).all
  | statusReport m =>
    exact ofOctets_of_readsAll .statusReport .statusReport rfl
      (StatusReport.readsAll_statusReport h)
  | submitReport m =>
    exact ofOctets_of_readsAll .submitReport .submitReport rfl
      (SubmitReport.reads_submitReport h).all
  | deliverReport m =>
    exact ofOctets_of_readsAll .deliverReport .deliverReport rfl
      (DeliverReport.reads_deliverReport h).all

/-- Reading undoes writing: what is written of a message is read, the way that it travels, as what a
reader finds of it, and that is written as the same octets again. -/
theorem restored_of_encode (h : m.encode = .ok s) :
    ofOctets m.direction s = .ok m.reread ∧ m.reread.encode = .ok s :=
  ⟨ofOctets_of_encode h, encode_reread h⟩

/-- A submit with a numbering plan of five bits, an element that looks like another one, and two
characters more than there is room for. -/
def overlong : Submit where
  reference := 1
  destination := ⟨.international, .reserved 0x11, .digits [⟨4, by decide⟩, ⟨9, by decide⟩]⟩
  coding := .eightBit
  validity := .relative 0xA7
  userData := ⟨[.generic 0 [7, 2, 1]], List.replicate 136 'a'⟩

/-- The octets of the submit. -/
def overlongOctets : Octets :=
  [0x51, 1, 2, 0x91, 0x94, 0, 4, 0xA7, 140, 5, 0, 3, 7, 2, 1] ++ List.replicate 134 0x61

/-- Of the plan four bits are left, the element is the one that it looks like, and the text has lost
its last two characters. -/
theorem restored_overlong : (submit overlong).encode = .ok overlongOctets ∧
    (ofOctets (submit overlong).direction overlongOctets = .ok (submit overlong).reread ∧
      (submit overlong).reread.encode = .ok overlongOctets) ∧
    overlong.reread = { overlong with
      destination := { overlong.destination with plan := .isdn }
      userData := ⟨[.concatenated 7 2 1], List.replicate 134 'a'⟩ } := by
  have hencode : (submit overlong).encode = .ok overlongOctets := by decide +kernel
  exact ⟨hencode, restored_of_encode hencode, by decide +kernel⟩

end Message

end ShortMessage.Transfer
