import ShortMessage.Proofs.Codec.Rewriting

/-!
# Messages that are read can be written again

The messages of the transfer and of the relay layer are put together from their fields, so that what
is read of a message can be written in no more octets and is read again as it is, unless it names
somebody with a numbering plan (`Relay.Message.rewritten_of_ofOctets`).
-/

namespace ShortMessage

open Decoder

/-! ## What reports carry -/

namespace Transfer

namespace Parameters

/-- A field that is not announced takes nothing. -/
theorem takes_field {α : Type} {Q : α → Octets → Prop} {d : Decoder α} (announced : Bool)
    (hd : Takes Q d) :
    Takes (fun a? t => a?.elim (t = []) (Q · t)) (fieldDecoder announced d) := by
  refine takes_ite (fun _ => takes_map hd) fun _ => takes_pure rfl

theorem takes_fields (indicator : UInt8) (hasHeader : Bool) :
    Takes (Rewrites encodeFields reread) (fieldsDecoder indicator hasHeader) := by
  refine (takes_field _ takes_octet).bind fun protocol t ht => ?_
  refine (takes_field _ takes_dataCoding).bind fun coding t' ht' => ?_
  refine (takes_field _ (UserData.takes_userData hasHeader fun _ =>
    UserData.admits_message _)).bind fun userData t'' ht'' => takes_pure ?_
  have hprotocol : protocol.toList.length ≤ t.length := by
    cases protocol with
    | none => exact Nat.zero_le _
    | some b => exact Nat.le_of_eq (congrArg List.length ht).symm
  have hcoding : (coding.map DataCoding.octet).toList.length ≤ t'.length := by
    cases coding with
    | none => exact Nat.zero_le _
    | some c => exact Nat.le_of_eq (Eq.symm ht')
  have hdata : ∃ data, encodeUserData ⟨protocol, coding, userData⟩ = .ok data ∧
      data.length ≤ t''.length ∧
        reread ⟨protocol, coding, userData⟩ = ⟨protocol, coding, userData⟩ := by
    cases userData with
    | none => exact ⟨[], rfl, Nat.zero_le _, rfl⟩
    | some u =>
      obtain ⟨⟨data, hwritten, hle⟩, hsame⟩ := ht''
      exact ⟨data, hwritten, hle, congrArg (Parameters.mk protocol coding <| some ·) hsame⟩
  obtain ⟨data, hwritten, hle, hsame⟩ := hdata
  refine ⟨⟨_, encodeFields_eq_ok.2 ⟨data, hwritten, rfl⟩, ?_⟩, hsame⟩
  simp only [List.length_append, List.length_nil]
  omega

theorem takes_indicator : Takes (fun _ t => t.length = 1) indicatorDecoder := by
  refine takes_octet.bind fun b t ht => ?_
  subst ht
  exact takes_ite (fun _ => takes_fail_bind _ _) fun _ => takes_pure rfl

theorem takes_parameters (hasHeader : Bool) :
    Takes (Rewrites encode reread) (Parameters.decoder hasHeader) := by
  refine takes_indicator.bind fun indicator t ht => (takes_fields _ _).mono fun p t' hp => ?_
  obtain ⟨⟨fields, hwritten, hle⟩, hsame⟩ := hp
  refine ⟨⟨_, encode_eq_ok.2 ⟨fields, hwritten, rfl⟩, ?_⟩, hsame⟩
  rw [List.length_cons, List.length_append]
  omega

end Parameters

/-- A cause that is read is written as it was. -/
theorem takes_failure : Takes (fun cause t => encodeFailure cause = .ok t) failureDecoder := by
  intro s cause rest h
  cases s with
  | nil => cases h
  | cons b s =>
    change (if Bits.has b failureBit then some <$> octet else pure none :
      Decoder (Option UInt8)) (b :: s) = _ at h
    split at h
    · cases h
      exact ⟨[b], rfl, if_pos ‹_›⟩
    · cases h
      exact ⟨[], rfl, rfl⟩

/-! ## Messages of the transfer layer -/

theorem takes_firstOctet (kind : Kind) :
    Takes (fun _ t => t.length = 1) (firstOctetDecoder kind) := by
  refine takes_octet.bind fun first t ht => ?_
  subst ht
  exact takes_ite (fun _ => takes_fail_bind _ _) fun _ => takes_pure rfl

theorem Submit.takes_submit :
    Takes (fun m t => m.destination.Plain → Rewrites encode reread m t) decoder := by
  refine (takes_firstOctet _).bind fun first t₁ h₁ => ?_
  refine takes_octet.bind fun reference t₂ h₂ => ?_
  refine Address.takes_address.bind fun destination t₃ h₃ => ?_
  refine takes_octet.bind fun protocol t₄ h₄ => ?_
  refine takes_dataCoding.bind fun coding t₅ h₅ => ?_
  refine (takes_validity _).bind fun validity t₆ h₆ => ?_
  refine (UserData.takes_userData _ fun _ =>
    UserData.admits_message _).bind fun userData t₇ h₇ => ?_
  refine takes_pure fun hplain => ?_
  obtain ⟨⟨_, hd, hdle⟩, hdsame⟩ := h₃ hplain
  obtain ⟨_, hv, hvle⟩ := h₆
  obtain ⟨⟨_, hu, hule⟩, husame⟩ := h₇
  refine ⟨⟨_, encode_eq_ok.2 ⟨_, hd, _, hv, _, hu, rfl⟩, ?_⟩, ?_⟩
  · simp only [List.length_append, List.length_cons, List.length_nil, h₁, h₂, h₄, h₅]
    omega
  · rw [reread, hdsame, husame]

theorem Deliver.takes_deliver :
    Takes (fun m t => m.originator.Plain → Rewrites encode reread m t) decoder := by
  refine (takes_firstOctet _).bind fun first t₁ h₁ => ?_
  refine Address.takes_address.bind fun originator t₂ h₂ => ?_
  refine takes_octet.bind fun protocol t₃ h₃ => ?_
  refine takes_dataCoding.bind fun coding t₄ h₄ => ?_
  refine takes_timestamp.bind fun timestamp t₅ h₅ => ?_
  refine (UserData.takes_userData _ fun _ =>
    UserData.admits_message _).bind fun userData t₆ h₆ => ?_
  refine takes_pure fun hplain => ?_
  obtain ⟨⟨_, ho, hole⟩, hosame⟩ := h₂ hplain
  obtain ⟨_, ht, htle⟩ := h₅
  obtain ⟨⟨_, hu, hule⟩, husame⟩ := h₆
  refine ⟨⟨_, encode_eq_ok.2 ⟨_, ho, _, ht, _, hu, rfl⟩, ?_⟩, ?_⟩
  · simp only [List.length_append, List.length_cons, List.length_nil, h₁, h₃, h₄]
    omega
  · rw [reread, hosame, husame]

theorem Command.takes_command :
    Takes (fun m t => m.destination.Plain → Rewrites encode reread m t) decoder := by
  refine (takes_firstOctet _).bind fun first t₁ h₁ => ?_
  refine takes_octet.bind fun reference t₂ h₂ => ?_
  refine takes_octet.bind fun protocol t₃ h₃ => ?_
  refine takes_octet.bind fun commandType t₄ h₄ => ?_
  refine takes_octet.bind fun messageNumber t₅ h₅ => ?_
  refine Address.takes_address.bind fun destination t₆ h₆ => ?_
  refine (UserData.takes_userData _ fun _ =>
    UserData.admits_command).bind fun commandData t₇ h₇ => ?_
  refine takes_pure fun hplain => ?_
  obtain ⟨⟨_, hd, hdle⟩, hdsame⟩ := h₆ hplain
  obtain ⟨⟨_, hu, hule⟩, husame⟩ := h₇
  refine ⟨⟨_, encode_eq_ok.2 ⟨_, hd, _, hu, rfl⟩, ?_⟩, ?_⟩
  · simp only [List.length_append, List.length_cons, List.length_nil, h₁, h₂, h₃, h₄, h₅]
    omega
  · rw [reread, hdsame, husame]

/-- An indicator that announces nothing is left out when it is written. -/
theorem StatusReport.takes_parameters (hasHeader : Bool) :
    Takes (Rewrites encodeParameters Parameters.reread) (Parameters.decoder hasHeader) := by
  refine (Parameters.takes_parameters hasHeader).mono fun p t hp => ⟨?_, hp.reread_eq⟩
  unfold encodeParameters
  split
  · exact ⟨[], rfl, Nat.zero_le _⟩
  · exact hp.written

/-- The fields are read if any octets are left for them. -/
theorem StatusReport.takes_rest {α : Type} {P : α → Octets → Prop} {f : Parameters → Decoder α}
    (hasHeader : Bool) (left : Nat) (hf : ∀ p t, Rewrites encodeParameters Parameters.reread p t →
      Takes (fun a t' => P a (t ++ t')) (f p)) :
    Takes P (if left = 0 then pure {} >>= f else Parameters.decoder hasHeader >>= f) := by
  refine takes_ite (fun _ => ?_) fun _ => (takes_parameters hasHeader).bind hf
  rw [pure_bind]
  exact hf {} [] ⟨⟨[], rfl, Nat.le_refl 0⟩, rfl⟩

theorem StatusReport.takes_statusReport :
    Takes (fun m t => m.recipient.Plain → Rewrites encode reread m t) decoder := by
  refine (takes_firstOctet _).bind fun first t₁ h₁ => ?_
  refine takes_octet.bind fun reference t₂ h₂ => ?_
  refine Address.takes_address.bind fun recipient t₃ h₃ => ?_
  refine takes_timestamp.bind fun timestamp t₄ h₄ => ?_
  refine takes_timestamp.bind fun dischargeTime t₅ h₅ => ?_
  refine takes_octet.bind fun status t₆ h₆ => ?_
  refine takes_remaining.bind fun left t₇ h₇ => ?_
  refine takes_rest _ left fun parameters t₈ h₈ => takes_pure fun hplain => ?_
  obtain ⟨⟨_, hr, hrle⟩, hrsame⟩ := h₃ hplain
  obtain ⟨_, ht, htle⟩ := h₄
  obtain ⟨_, hd, hdle⟩ := h₅
  obtain ⟨⟨_, hp, hple⟩, hpsame⟩ := h₈
  refine ⟨⟨_, encode_eq_ok.2 ⟨_, hr, _, ht, _, hd, _, hp, rfl⟩, ?_⟩, ?_⟩
  · simp only [List.length_append, List.length_cons, List.length_nil, h₁, h₂, h₆]
    omega
  · rw [reread, hrsame, hpsame]

theorem SubmitReport.takes_submitReport : Takes (Rewrites encode reread) decoder := by
  refine (takes_firstOctet _).bind fun first t₁ h₁ => ?_
  refine takes_failure.bind fun failureCause t₂ h₂ => ?_
  refine Parameters.takes_indicator.bind fun indicator t₃ h₃ => ?_
  refine takes_timestamp.bind fun timestamp t₄ h₄ => ?_
  refine (Parameters.takes_fields _ _).bind fun parameters t₅ h₅ => takes_pure ?_
  obtain ⟨_, ht, htle⟩ := h₄
  obtain ⟨⟨_, hp, hple⟩, hsame⟩ := h₅
  refine ⟨⟨_, encode_eq_ok.2 ⟨_, h₂, _, ht, _, hp, rfl⟩, ?_⟩, ?_⟩
  · simp only [List.length_append, List.length_cons, List.length_nil, h₁, h₃]
    omega
  · rw [reread, hsame]

theorem DeliverReport.takes_deliverReport : Takes (Rewrites encode reread) decoder := by
  refine (takes_firstOctet _).bind fun first t₁ h₁ => ?_
  refine takes_failure.bind fun failureCause t₂ h₂ => ?_
  refine (Parameters.takes_parameters _).bind fun parameters t₃ h₃ => takes_pure ?_
  obtain ⟨⟨_, hp, hple⟩, hsame⟩ := h₃
  refine ⟨⟨_, encode_eq_ok.2 ⟨_, h₂, _, hp, rfl⟩, ?_⟩, ?_⟩
  · simp only [List.length_append, List.length_cons, List.length_nil, h₁]
    omega
  · rw [reread, hsame]

theorem Kind.direction_of_ofTypeBits? {direction : Direction} {bits : UInt8} {kind : Kind}
    (h : ofTypeBits? direction bits = some kind) : kind.direction = direction := by
  unfold ofTypeBits? at h
  split at h <;> cases h <;> rfl

namespace Message

/-- The address that a message holds; reports have none. -/
def address? : Message → Option Address
  | .submit m => some m.destination
  | .deliver m => some m.originator
  | .command m => some m.destination
  | .statusReport m => some m.recipient
  | .submitReport _ | .deliverReport _ => none

/-- The address, if the message holds one, is one that can be written. -/
def Plain (m : Message) : Prop := ∀ a, m.address? = some a → a.Plain

theorem takes_decoderOf (kind : Kind) :
    Takes (fun m t => m.kind = kind ∧ (m.Plain → Rewrites encode reread m t)) (decoderOf kind) := by
  cases kind with
  | submit =>
    exact takes_map (Submit.takes_submit.mono fun m t h =>
      ⟨rfl, fun hplain => (h (hplain _ rfl)).map submit (fun _ => rfl) fun _ => rfl⟩)
  | deliver =>
    exact takes_map (Deliver.takes_deliver.mono fun m t h =>
      ⟨rfl, fun hplain => (h (hplain _ rfl)).map deliver (fun _ => rfl) fun _ => rfl⟩)
  | command =>
    exact takes_map (Command.takes_command.mono fun m t h =>
      ⟨rfl, fun hplain => (h (hplain _ rfl)).map command (fun _ => rfl) fun _ => rfl⟩)
  | statusReport =>
    exact takes_map (StatusReport.takes_statusReport.mono fun m t h =>
      ⟨rfl, fun hplain => (h (hplain _ rfl)).map statusReport (fun _ => rfl) fun _ => rfl⟩)
  | submitReport =>
    exact takes_map (SubmitReport.takes_submitReport.mono fun m t h =>
      ⟨rfl, fun _ => h.map submitReport (fun _ => rfl) fun _ => rfl⟩)
  | deliverReport =>
    exact takes_map (DeliverReport.takes_deliverReport.mono fun m t h =>
      ⟨rfl, fun _ => h.map deliverReport (fun _ => rfl) fun _ => rfl⟩)

theorem takes_decoder (direction : Direction) :
    Takes (fun m t => m.direction = direction ∧ (m.Plain → Rewrites encode reread m t))
      (decoder direction) := by
  refine takes_peek.bind fun first t ht => ?_
  subst ht
  split
  · rename_i kind hkind
    refine (takes_decoderOf kind).mono fun m t hm => ⟨?_, hm.2⟩
    rw [Message.direction, hm.1, Kind.direction_of_ofTypeBits? hkind]
  · exact takes_fail _

end Message

end Transfer

/-! ## Messages of the relay layer -/

namespace Relay.Message

theorem takes_carried (direction : Direction) :
    Takes (fun m t => m.direction = direction ∧
      (m.Plain → Rewrites encodeCarried Transfer.Message.reread m t))
      (carriedDecoder direction) := by
  refine takes_block.bind fun s t ht => (takes_ofExcept _).mono fun m t' hm => ?_
  obtain ⟨hlt, rfl⟩ := ht
  obtain ⟨hm, rfl⟩ := hm
  obtain ⟨hdirection, hm⟩ := (Transfer.Message.takes_decoder direction).complete hm
  refine ⟨hdirection, fun hplain => ?_⟩
  obtain ⟨⟨octets, hwritten, hle⟩, hsame⟩ := hm hplain
  refine ⟨⟨_, encodeCarried_eq_ok.2 ⟨octets, hwritten, by omega, rfl⟩, ?_⟩, hsame⟩
  simpa using hle

/-- A report that is read as part of an answer is one, and there is nothing else to be read. -/
theorem takes_report (direction : Direction) :
    Takes (fun report t => (∀ m, report = some m → m.Plain) →
      Rewrites (encodeReport direction) (Option.map Transfer.Message.reread) report t)
      (reportDecoder direction) := by
  refine takes_remaining.bind fun left t ht => ?_
  subst ht
  refine takes_ite (fun _ => takes_pure fun _ => ⟨⟨[], rfl, Nat.zero_le _⟩, rfl⟩) fun _ => ?_
  refine takes_octet.bind fun element t ht => ?_
  subst ht
  refine takes_ite (fun _ => takes_fail_bind _ _) fun _ => ?_
  refine (takes_carried direction).bind fun m t hm => ?_
  refine (takes_ofExcept _).bind fun _ t' hcheck => ?_
  obtain ⟨hcheck, rfl⟩ := hcheck
  refine takes_pure fun hplain => ?_
  obtain ⟨⟨carried, hwritten, hle⟩, hsame⟩ := hm.2 (hplain m rfl)
  refine ⟨⟨_, encodeReport_some.2 ⟨checkReport_eq_ok.1 hcheck, carried, hwritten, rfl⟩, ?_⟩,
    congrArg some hsame⟩
  simp only [List.length_append, List.length_cons, List.length_nil]
  omega

/-- A cause that is read has seven bits. -/
theorem takes_cause :
    Takes (fun p t => Rewrites (encodeCause · p.2) Cause.reread p.1 t) causeDecoder := by
  have hcode : ∀ b : UInt8, (Cause.ofCode (b &&& 0x7F)).code ≤ 127 := by decide +kernel
  refine takes_block.bind fun s t ht => ?_
  obtain ⟨-, rfl⟩ := ht
  split
  · rename_i cause
    exact takes_pure ⟨⟨_, encodeCause_eq_ok.2 ⟨hcode cause, rfl⟩, Nat.le_refl _⟩,
      Cause.reread_ofCode _⟩
  · rename_i cause diagnostic
    exact takes_pure ⟨⟨_, encodeCause_eq_ok.2 ⟨hcode cause, rfl⟩, Nat.le_refl _⟩,
      Cause.reread_ofCode _⟩
  · exact takes_fail _

/-- The transfer message that a message carries. -/
def carried? : Message → Option Transfer.Message
  | .data _ _ message => some message
  | .ack _ _ report | .error _ _ _ _ report => report
  | .memoryAvailable _ => none

/-- The address of the transfer message, if it carries one that holds one, is one that can be
written. -/
def Plain (m : Message) : Prop := ∀ message, m.carried? = some message → message.Plain

/-- What is kept of a message that stands in these octets behind its type, whatever its reserved
bits are. -/
def Kept (m : Message) (t : Octets) : Prop :=
  m.Plain → ∀ type, Rewrites encode reread m (type :: t)

/-- Behind the addresses of data, of which one is left out. -/
theorem takes_message {address : Octets} (front : Octets) (direction : Direction)
    (reference : UInt8) (centre : Address)
    (ha : Rewrites Address.encodeRelay Address.reread centre address)
    (hfront : front.length = address.length + 1) :
    Takes (fun m t => Kept m ([reference] ++ (front ++ t))) do
      let message ← carriedDecoder direction
      Decoder.ofExcept (checkData message)
      return .data reference centre message := by
  refine (takes_carried _).bind fun message t hm => ?_
  refine (takes_ofExcept _).bind fun _ t' hcheck => ?_
  obtain ⟨hcheck, rfl⟩ := hcheck
  refine takes_pure fun hplain type => ?_
  obtain ⟨⟨_, hcentre, hcle⟩, hcsame⟩ := ha
  obtain ⟨⟨_, hwritten, hmle⟩, hmsame⟩ := hm.2 (hplain message rfl)
  refine ⟨⟨_, encode_data.2 ⟨checkData_eq_ok.1 hcheck, _, hcentre, _, hwritten, rfl⟩, ?_⟩, ?_⟩
  · simp only [List.length_append, List.length_cons, List.length_nil, length_addresses]
    omega
  · rw [reread, hcsame, hmsame]

theorem takes_data (direction : Direction) : Takes Kept (dataDecoder direction) := by
  refine takes_octet.bind fun reference t ht => ?_
  subst ht
  refine Address.takes_relayAddress.bind fun originator t₁ h₁ => ?_
  refine Address.takes_relayAddress.bind fun destination t₂ h₂ => ?_
  cases direction with
  | toCentre =>
    refine takes_ite (fun _ => takes_fail_bind _ _) fun hmobile => ?_
    have habsent := h₁.1 (Option.not_isSome_iff_eq_none.1 hmobile)
    split
    · exact takes_fail _
    · rename_i centre
      refine (takes_message (t₁ ++ t₂) .toCentre reference centre (h₂.2 centre rfl)
        ?_).mono fun m t hm => by rwa [List.append_assoc] at hm
      rw [List.length_append, habsent, Nat.add_comm]
  | toMobile =>
    refine takes_ite (fun _ => takes_fail_bind _ _) fun hmobile => ?_
    have habsent := h₂.1 (Option.not_isSome_iff_eq_none.1 hmobile)
    split
    · exact takes_fail _
    · rename_i centre
      refine (takes_message (t₁ ++ t₂) .toMobile reference centre (h₁.2 centre rfl)
        ?_).mono fun m t hm => by rwa [List.append_assoc] at hm
      rw [List.length_append, habsent]

theorem takes_ack (direction : Direction) : Takes Kept (ackDecoder direction) := by
  refine takes_octet.bind fun reference t ht => ?_
  subst ht
  refine (takes_report direction).bind fun report t hr => takes_pure fun hplain type => ?_
  obtain ⟨⟨_, hwritten, hle⟩, hsame⟩ := hr hplain
  refine ⟨⟨_, encode_ack.2 ⟨_, hwritten, rfl⟩, ?_⟩, ?_⟩
  · simp only [List.length_append, List.length_cons, List.length_nil]
    omega
  · rw [reread, hsame]

theorem takes_error (direction : Direction) : Takes Kept (errorDecoder direction) := by
  refine takes_octet.bind fun reference t ht => ?_
  subst ht
  refine takes_cause.bind fun p t hc => ?_
  refine (takes_report direction).bind fun report t' hr => takes_pure fun hplain type => ?_
  obtain ⟨⟨_, hcause, hcle⟩, hcsame⟩ := hc
  obtain ⟨⟨_, hwritten, hle⟩, hsame⟩ := hr hplain
  refine ⟨⟨_, encode_error.2 ⟨_, hcause, _, hwritten, rfl⟩, ?_⟩, ?_⟩
  · simp only [List.length_append, List.length_cons, List.length_nil]
    omega
  · rw [reread, hcsame, hsame]

theorem takes_decoder : Takes (fun m t => m.Plain → Rewrites encode reread m t) decoder := by
  refine takes_octet.bind fun type t ht => ?_
  subst ht
  have hkept {d : Decoder Message} (hd : Takes Kept d) :
      Takes (fun m t => m.Plain → Rewrites encode reread m ([type] ++ t)) d :=
    hd.mono fun m t h hplain => h hplain type
  dsimp only
  split
  · exact hkept (takes_data _)
  · exact hkept (takes_data _)
  · exact hkept (takes_ack _)
  · exact hkept (takes_ack _)
  · exact hkept (takes_error _)
  · exact hkept (takes_error _)
  · refine takes_map (takes_octet.mono fun reference t ht _ => ?_)
    subst ht
    exact ⟨⟨_, rfl, Nat.le_refl _⟩, rfl⟩
  · exact takes_fail _

/-- Whatever is accepted of either layer can be written again, in no more octets than were read, and
is read from them as the same message, unless its address is a name with a numbering plan. -/
theorem rewritten_of_ofOctets :
    (∀ {direction : Direction} {s : Octets} {m : Transfer.Message},
      Transfer.Message.ofOctets direction s = .ok m → m.Plain →
        ∃ t, m.encode = .ok t ∧ t.length ≤ s.length ∧
          Transfer.Message.ofOctets direction t = .ok m) ∧
    ∀ {s : Octets} {m : Message}, ofOctets s = .ok m → m.Plain →
      ∃ t, m.encode = .ok t ∧ t.length ≤ s.length ∧ ofOctets t = .ok m := by
  refine ⟨?_, ?_⟩
  · intro direction s m h hplain
    obtain ⟨hdirection, hm⟩ := (Transfer.Message.takes_decoder direction).complete h
    obtain ⟨⟨t, hwritten, hle⟩, hsame⟩ := hm hplain
    have hread := Transfer.Message.ofOctets_of_encode hwritten
    rw [hdirection, hsame] at hread
    exact ⟨t, hwritten, hle, hread⟩
  · intro s m h hplain
    obtain ⟨⟨t, hwritten, hle⟩, hsame⟩ := takes_decoder.complete h hplain
    have hread := ofOctets_of_encode hwritten
    rw [hsame] at hread
    exact ⟨t, hwritten, hle, hread⟩

/-- A submit whose header has no elements and whose three digits end in a fill nibble that is
none. -/
def looseSubmit : Octets := [0x41, 7, 3, 0x91, 0x21, 0x43, 0, 4, 3, 0, 0x61, 0x62]

/-- The submit that is read. -/
def tightSubmit : Transfer.Submit where
  reference := 7
  destination := ⟨.international, .isdn, .digits [⟨1, by decide⟩, ⟨2, by decide⟩, ⟨3, by decide⟩]⟩
  coding := .eightBit
  userData := ⟨[], ['a', 'b']⟩

/-- The header is left out, and reserved bits of a relay message are cleared: they both lose what
they could be written without. -/
theorem rewritten_loose :
    (Transfer.Message.ofOctets .toCentre looseSubmit = .ok (.submit tightSubmit) ∧
      Transfer.Message.Plain (.submit tightSubmit) ∧
      ∃ t, tightSubmit.encode = .ok t ∧ t.length ≤ looseSubmit.length ∧
        Transfer.Message.ofOctets .toCentre t = .ok (.submit tightSubmit)) ∧
    ofOctets [0xFC, 9, 1, 0xA9] = .ok (.error .toCentre 9 .temporaryFailure none none) ∧
      Plain (.error .toCentre 9 .temporaryFailure none none) ∧
      ∃ t, encode (.error .toCentre 9 .temporaryFailure none none) = .ok t ∧
        t.length ≤ 4 ∧ ofOctets t = .ok (.error .toCentre 9 .temporaryFailure none none) := by
  have hsubmit : Transfer.Message.ofOctets .toCentre looseSubmit = .ok (.submit tightSubmit) := by
    decide +kernel
  have hplain : Transfer.Message.Plain (.submit tightSubmit) := by rintro _ ⟨⟩ ⟨⟩
  have herror : ofOctets [0xFC, 9, 1, 0xA9] =
      .ok (.error .toCentre 9 .temporaryFailure none none) := by decide +kernel
  have hplain' : Plain (.error .toCentre 9 .temporaryFailure none none) := by rintro _ ⟨⟩
  exact ⟨⟨hsubmit, hplain, rewritten_of_ofOctets.1 hsubmit hplain⟩, herror, hplain',
    rewritten_of_ofOctets.2 herror hplain'⟩

end Relay.Message

end ShortMessage
