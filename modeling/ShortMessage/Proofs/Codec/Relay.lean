import ShortMessage.Proofs.Codec.Transfer
import ShortMessage.Relay.Message

/-!
# Messages of the relay layer are read back

Whatever is written of a relay message is read as what a reader finds of it, `Message.reread`
(`Message.ofOctets_of_encode`), and fits a control message (`Message.length_encode`).  What is read
asks for as much, travels the same way and has the same reference (`Message.ofOctets_encode`), which
is all that a control entity looks at before it takes the message.  What is read is `Proper`: data
carries no report.
-/

namespace ShortMessage.Relay

open Decoder

namespace Cause

/-- A cause as a reader finds it. -/
def reread (c : Cause) : Cause := ofCode c.code

theorem code_ofCode : ∀ b : UInt8, (ofCode b).code = b := by decide +kernel

@[simp] theorem code_reread (c : Cause) : c.reread.code = c.code := code_ofCode c.code

@[simp] theorem reread_ofCode (b : UInt8) : (ofCode b).reread = ofCode b := by
  rw [reread, code_ofCode]

end Cause

namespace Message

variable {s : Octets} {direction : Direction} {m : Message}

/-- A message as a reader finds it. -/
def reread : Message → Message
  | .data reference centre message => .data reference centre.reread message.reread
  | .ack direction reference report =>
    .ack direction reference (report.map Transfer.Message.reread)
  | .error direction reference cause diagnostic report =>
    .error direction reference cause.reread diagnostic (report.map Transfer.Message.reread)
  | .memoryAvailable reference => .memoryAvailable reference

/-- Nothing that a control entity looks at tells two messages apart. -/
structure Alike (m m' : Message) : Prop where
  isRequest : m'.isRequest = m.isRequest
  direction : m'.direction = m.direction
  reference : m'.reference = m.reference

theorem alike_reread (m : Message) : m.Alike m.reread := by
  cases m with
  | data reference centre message => exact ⟨rfl, message.direction_reread, rfl⟩
  | ack | error | memoryAvailable => exact ⟨rfl, rfl, rfl⟩

@[simp] theorem label_reread (m : Message) : m.reread.label = m.label := by
  cases m <;> rfl

/-! ## What is carried -/

section

variable {m : Transfer.Message} {report : Option Transfer.Message}

theorem encodeCarried_eq_ok : encodeCarried m = .ok s ↔ ∃ octets, m.encode = .ok octets ∧
    octets.length < 256 ∧ s = UInt8.ofNat octets.length :: octets := by
  rw [encodeCarried, bind_eq_ok]
  simp only [lengthPrefixed_eq_ok]

theorem encodeCarried_reread (h : encodeCarried m = .ok s) : encodeCarried m.reread = .ok s := by
  obtain ⟨octets, hm, hlt, rfl⟩ := encodeCarried_eq_ok.1 h
  exact encodeCarried_eq_ok.2 ⟨octets, Transfer.Message.encode_reread hm, hlt, rfl⟩

theorem length_encodeCarried (h : encodeCarried m = .ok s) : s.length ≤ 176 := by
  obtain ⟨octets, hm, -, rfl⟩ := encodeCarried_eq_ok.1 h
  exact Nat.succ_le_succ (Transfer.Message.length_encode hm)

theorem reads_carried (h : encodeCarried m = .ok s) :
    Reads (carriedDecoder m.direction) s m.reread := by
  obtain ⟨octets, hm, hlt, rfl⟩ := encodeCarried_eq_ok.1 h
  exact (reads_block hlt).last (reads_ofExcept (Transfer.Message.ofOctets_of_encode hm))

theorem checkReport_eq_ok {u : Unit} :
    checkReport direction m = .ok u ↔ m.isReport = true ∧ m.direction = direction := by
  unfold checkReport Transfer.Message.isReportTo
  split <;> simp_all

theorem checkData_eq_ok {u : Unit} : checkData m = .ok u ↔ m.isReport = false := by
  unfold checkData
  split <;> simp_all

/-- A report that is written is one that travels this way. -/
theorem encodeReport_some : encodeReport direction (some m) = .ok s ↔
    (m.isReport = true ∧ m.direction = direction) ∧
      ∃ carried, encodeCarried m = .ok carried ∧ s = reportElement :: carried := by
  simp only [encodeReport, bind_eq_ok, pure_eq_ok, checkReport_eq_ok]
  exact ⟨fun ⟨_, h⟩ => h, fun h => ⟨(), h⟩⟩

theorem encodeReport_reread (h : encodeReport direction report = .ok s) :
    encodeReport direction (report.map Transfer.Message.reread) = .ok s := by
  cases report with
  | none => exact h
  | some m =>
    obtain ⟨⟨hreport, hdirection⟩, carried, hm, rfl⟩ := encodeReport_some.1 h
    refine encodeReport_some.2 ⟨⟨?_, ?_⟩, carried, encodeCarried_reread hm, rfl⟩
    · rw [Transfer.Message.isReport_reread, hreport]
    · rw [Transfer.Message.direction_reread, hdirection]

theorem length_encodeReport (h : encodeReport direction report = .ok s) : s.length ≤ 177 := by
  cases report with
  | none =>
    cases h
    exact Nat.zero_le _
  | some m =>
    obtain ⟨-, carried, hm, rfl⟩ := encodeReport_some.1 h
    exact Nat.succ_le_succ (length_encodeCarried hm)

/-- A report is read back if it is all that is left. -/
theorem readsAll_report (h : encodeReport direction report = .ok s) :
    ReadsAll (reportDecoder direction) s (report.map Transfer.Message.reread) := by
  cases report with
  | none =>
    cases h
    exact ReadsAll.remaining rfl
  | some m =>
    obtain ⟨⟨hreport, rfl⟩, carried, hm, rfl⟩ := encodeReport_some.1 h
    have hcheck : checkReport m.direction m.reread = .ok () :=
      checkReport_eq_ok.2 ⟨m.isReport_reread.trans hreport, m.direction_reread⟩
    have hs : reportElement :: carried = [reportElement] ++ carried := rfl
    rw [hs]
    exact ReadsAll.remaining (ReadsAll.unless (by simp) (Reads.bind_all (reads_octet _)
      (ReadsAll.unless (by simp) (Reads.last_all (reads_carried hm) (Reads.last_all
        (reads_ofExcept hcheck) (reads_pure _).all)))))

end

theorem encodeCause_eq_ok {cause : Cause} {diagnostic : Option UInt8} :
    encodeCause cause diagnostic = .ok s ↔ cause.code ≤ 127 ∧
      s = UInt8.ofNat (cause.code :: diagnostic.toList).length ::
        cause.code :: diagnostic.toList := by
  unfold encodeCause
  split
  · rename_i hle
    cases diagnostic <;> exact ⟨fun h => ⟨hle, (Except.ok.inj h).symm⟩, fun h => h.2 ▸ rfl⟩
  · rename_i hle
    exact ⟨nofun, fun h => absurd h.1 hle⟩

theorem encodeCause_reread {cause : Cause} {diagnostic : Option UInt8}
    (h : encodeCause cause diagnostic = .ok s) : encodeCause cause.reread diagnostic = .ok s := by
  rwa [encodeCause_eq_ok, Cause.code_reread, ← encodeCause_eq_ok]

theorem length_encodeCause {cause : Cause} {diagnostic : Option UInt8}
    (h : encodeCause cause diagnostic = .ok s) : s.length ≤ 3 := by
  obtain ⟨-, rfl⟩ := encodeCause_eq_ok.1 h
  cases diagnostic <;> simp

/-- A code that is written has no more than the seven bits that are read. -/
theorem Cause.code_and {c : Cause} (h : c.code ≤ 127) : c.code &&& 0x7F = c.code := by
  have hall : ∀ b : UInt8, b ≤ 127 → b &&& 0x7F = b := by decide +kernel
  exact hall _ h

theorem reads_cause {cause : Cause} {diagnostic : Option UInt8}
    (h : encodeCause cause diagnostic = .ok s) :
    Reads causeDecoder s (cause.reread, diagnostic) := by
  obtain ⟨hle, rfl⟩ := encodeCause_eq_ok.1 h
  have hblock := reads_block (s := cause.code :: diagnostic.toList) (by cases diagnostic <;> simp)
  cases diagnostic with
  | none =>
    refine hblock.last (reads_pure_of_eq ?_)
    rw [Cause.code_and hle, Cause.reread]
  | some d =>
    refine hblock.last (reads_pure_of_eq ?_)
    rw [Cause.code_and hle, Cause.reread]

/-! ## Any message -/

/-- The two addresses of data: the mobile station's is left out. -/
def addresses : Direction → Octets → Octets
  | .toCentre, address => Address.absentRelay ++ address
  | .toMobile, address => address ++ Address.absentRelay

theorem length_addresses (direction : Direction) (address : Octets) :
    (addresses direction address).length = address.length + 1 := by
  cases direction
  · rfl
  · exact List.length_append

theorem encode_data {reference : UInt8} {centre : Address} {message : Transfer.Message} :
    encode (.data reference centre message) = .ok s ↔ message.isReport = false ∧
      ∃ address, centre.encodeRelay = .ok address ∧
      ∃ carried, encodeCarried message = .ok carried ∧
        s = typeFor dataType message.direction ::
          ([reference] ++ (addresses message.direction address ++ carried)) := by
  simp only [encode, bind_eq_ok, pure_eq_ok, checkData_eq_ok]
  cases message.direction <;> simp [addresses]

theorem encode_ack {reference : UInt8} {report : Option Transfer.Message} :
    encode (.ack direction reference report) = .ok s ↔
      ∃ octets, encodeReport direction report = .ok octets ∧
        s = typeFor ackType direction :: ([reference] ++ octets) := by
  simp only [encode, bind_eq_ok, pure_eq_ok]
  rfl

theorem encode_error {reference : UInt8} {cause : Cause} {diagnostic : Option UInt8}
    {report : Option Transfer.Message} :
    encode (.error direction reference cause diagnostic report) = .ok s ↔
      ∃ causeOctets, encodeCause cause diagnostic = .ok causeOctets ∧
      ∃ octets, encodeReport direction report = .ok octets ∧
        s = typeFor errorType direction :: ([reference] ++ (causeOctets ++ octets)) := by
  simp only [encode, bind_eq_ok, pure_eq_ok]
  rfl

/-- What a reader finds is written as the same octets. -/
theorem encode_reread (h : m.encode = .ok s) : m.reread.encode = .ok s := by
  cases m with
  | data reference centre message =>
    obtain ⟨hdata, address, ha, carried, hm, rfl⟩ := encode_data.1 h
    exact encode_data.2 ⟨message.isReport_reread.trans hdata, address,
      Address.encodeRelay_reread ha, carried, encodeCarried_reread hm,
      by rw [Transfer.Message.direction_reread]⟩
  | ack direction reference report =>
    obtain ⟨octets, hr, rfl⟩ := encode_ack.1 h
    exact encode_ack.2 ⟨octets, encodeReport_reread hr, rfl⟩
  | error direction reference cause diagnostic report =>
    obtain ⟨causeOctets, hc, octets, hr, rfl⟩ := encode_error.1 h
    exact encode_error.2 ⟨causeOctets, encodeCause_reread hc, octets, encodeReport_reread hr, rfl⟩
  | memoryAvailable reference => exact h

/-- Every message fits a control message. -/
theorem length_encode (h : m.encode = .ok s) : s.length ≤ 248 := by
  cases m with
  | data reference centre message =>
    obtain ⟨-, address, ha, carried, hm, rfl⟩ := encode_data.1 h
    have haddress := Address.length_encodeRelay ha
    have hcarried := length_encodeCarried hm
    unfold Address.maxRelayValue at haddress
    simp only [List.length_append, List.length_cons, List.length_nil, length_addresses]
    omega
  | ack direction reference report =>
    obtain ⟨octets, hr, rfl⟩ := encode_ack.1 h
    have hreport := length_encodeReport hr
    simp only [List.length_append, List.length_cons, List.length_nil]
    omega
  | error direction reference cause diagnostic report =>
    obtain ⟨causeOctets, hc, octets, hr, rfl⟩ := encode_error.1 h
    have hcause := length_encodeCause hc
    have hreport := length_encodeReport hr
    simp only [List.length_append, List.length_cons, List.length_nil]
    omega
  | memoryAvailable reference =>
    cases h
    exact Nat.le_of_ble_eq_true rfl

/-- The addresses of data are read back, whichever way it travels. -/
theorem reads_data {reference : UInt8} {centre : Address} {m : Transfer.Message}
    {address carried : Octets} (hdata : m.isReport = false)
    (ha : centre.encodeRelay = .ok address) (hm : encodeCarried m = .ok carried) :
    Reads (dataDecoder m.direction) ([reference] ++ (addresses m.direction address ++ carried))
      (.data reference centre.reread m.reread) := by
  have hcheck : checkData m.reread = .ok () :=
    checkData_eq_ok.2 (m.isReport_reread.trans hdata)
  have hcarried := reads_carried hm
  cases hway : m.direction with
  | toCentre =>
    rw [hway] at hcarried
    rw [addresses, List.append_assoc]
    exact Reads.bind (reads_octet _) (Reads.bind Address.reads_absentRelay (Reads.bind
      (Address.reads_relayAddress ha) (Reads.unless (by decide) (Reads.last hcarried
        (Reads.last (reads_ofExcept hcheck) (reads_pure _))))))
  | toMobile =>
    rw [hway] at hcarried
    rw [addresses, List.append_assoc]
    exact Reads.bind (reads_octet _) (Reads.bind (Address.reads_relayAddress ha) (Reads.bind
      Address.reads_absentRelay (Reads.unless (by decide) (Reads.last hcarried
        (Reads.last (reads_ofExcept hcheck) (reads_pure _))))))

/-- The type of a message says how to go on. -/
theorem ofOctets_typed {m' : Message} :
    (ReadsAll (dataDecoder direction) s m' →
      ofOctets (typeFor dataType direction :: s) = .ok m') ∧
    (ReadsAll (ackDecoder direction) s m' →
      ofOctets (typeFor ackType direction :: s) = .ok m') ∧
    (ReadsAll (errorDecoder direction) s m' →
      ofOctets (typeFor errorType direction :: s) = .ok m') := by
  cases direction with
  | toCentre =>
    exact ⟨fun h => (Reads.bind_all (reads_octet 0) h).complete,
      fun h => (Reads.bind_all (reads_octet 2) h).complete,
      fun h => (Reads.bind_all (reads_octet 4) h).complete⟩
  | toMobile =>
    exact ⟨fun h => (Reads.bind_all (reads_octet 1) h).complete,
      fun h => (Reads.bind_all (reads_octet 3) h).complete,
      fun h => (Reads.bind_all (reads_octet 5) h).complete⟩

/-- What is written of a message is read as a reader finds it. -/
theorem ofOctets_of_encode (h : m.encode = .ok s) : ofOctets s = .ok m.reread := by
  cases m with
  | data reference centre message =>
    obtain ⟨hdata, address, ha, carried, hm, rfl⟩ := encode_data.1 h
    exact ofOctets_typed.1 (reads_data hdata ha hm).all
  | ack direction reference report =>
    obtain ⟨octets, hr, rfl⟩ := encode_ack.1 h
    exact ofOctets_typed.2.1 (Reads.bind_all (reads_octet reference)
      ((readsAll_report hr).last (reads_pure _).all))
  | error direction reference cause diagnostic report =>
    obtain ⟨causeOctets, hc, octets, hr, rfl⟩ := encode_error.1 h
    exact ofOctets_typed.2.2 (Reads.bind_all (reads_octet reference) (Reads.bind_all
      (reads_cause hc) ((readsAll_report hr).last (reads_pure _).all)))
  | memoryAvailable reference =>
    cases h
    rfl

/-- What is written of a message is read as a message like it. -/
theorem ofOctets_encode (h : m.encode = .ok s) : ∃ m', ofOctets s = .ok m' ∧ Alike m m' :=
  ⟨m.reread, ofOctets_of_encode h, alike_reread m⟩

/-! ## What is never read -/

/-- If it is data, it carries no report. -/
def Proper (m : Message) : Prop :=
  ∀ reference centre message, m = .data reference centre message → message.isReport = false

theorem yields_data (direction : Direction) : Yields Proper (dataDecoder direction) := by
  have hmessage (reference : UInt8) (centre : Address) : Yields Proper do
      let message ← carriedDecoder direction
      Decoder.ofExcept (checkData message)
      return .data reference centre message := by
    refine yields_of_rest fun message => ?_
    have hcheck : Yields (fun _ => message.isReport = false)
        (Decoder.ofExcept (checkData message)) := by
      refine yields_ofExcept fun _ hm => ?_
      unfold checkData at hm
      split at hm
      · cases hm
      · rename_i hr
        exact Bool.eq_false_iff.2 hr
    refine hcheck.bind fun _ hm => yields_pure ?_
    rintro _ _ _ ⟨⟩
    exact hm
  unfold dataDecoder
  refine yields_of_rest fun reference => yields_of_rest fun originator =>
    yields_of_rest fun destination => ?_
  cases direction
  all_goals
    dsimp only
    split
    · refine yields_of_rest fun _ => ?_
      split
      · exact yields_fail _
      · exact hmessage reference _
    · split
      · exact yields_fail _
      · exact hmessage reference _

theorem yields_decoder : Yields Proper decoder := by
  have hack (direction : Direction) : Yields Proper (ackDecoder direction) :=
    yields_of_rest fun _ => yields_of_rest fun _ => yields_pure (by rintro _ _ _ ⟨⟩)
  have herror (direction : Direction) : Yields Proper (errorDecoder direction) :=
    yields_of_rest fun _ => yields_of_rest fun _ => yields_of_rest fun _ =>
      yields_pure (by rintro _ _ _ ⟨⟩)
  unfold decoder
  refine yields_of_rest fun type => ?_
  dsimp only
  split
  · exact yields_data _
  · exact yields_data _
  · exact hack _
  · exact hack _
  · exact herror _
  · exact herror _
  · exact yields_of_rest fun _ => yields_pure (by rintro _ _ _ ⟨⟩)
  · exact yields_fail _

/-- A report is never read as data. -/
theorem proper_of_ofOctets (h : ofOctets s = .ok m) : m.Proper := yields_decoder.complete h

end Message

end ShortMessage.Relay
