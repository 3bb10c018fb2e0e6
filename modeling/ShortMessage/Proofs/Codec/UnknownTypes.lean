import ShortMessage.Proofs.Codec.Faults

/-!
# Which octets have an unknown type

A relay message fails for an unknown type for two reasons only: its own type is unknown, or the
transfer message that it carries has the type that is reserved (`Relay.Message.unknownType_iff`).
What is carried is said by the octets alone (`Relay.Message.Carries`), up to where the transfer
message begins.
-/

namespace ShortMessage

open Decoder

/-! ## Messages of the transfer layer -/

namespace Transfer

theorem Parameters.sound_field {α : Type} {d : Decoder α} (announced : Bool) (hd : Sound d) :
    Sound (fieldDecoder announced d) :=
  sound_ite (hd.map some) (sound_pure none)

theorem Parameters.sound_fields (indicator : UInt8) (hasHeader : Bool) :
    Sound (fieldsDecoder indicator hasHeader) :=
  (sound_field _ sound_octet).bind fun _ => (sound_field _ sound_dataCoding).bind fun _ =>
    (sound_field _ (UserData.sound_userData _ _ _)).bind fun _ => sound_pure _

theorem Parameters.sound_indicator : Sound indicatorDecoder :=
  sound_octet.bind fun _ => sound_ite (sound_fail_bind rfl _) (sound_pure _)

theorem Parameters.sound_parameters (hasHeader : Bool) : Sound (Parameters.decoder hasHeader) :=
  sound_indicator.bind fun _ => sound_fields _ _

theorem sound_failure : Sound failureDecoder :=
  sound_peek.bind fun _ => sound_ite (sound_octet.map some) (sound_pure none)

/-- The type of a kind is not the one asked for, but never unknown. -/
theorem sound_firstOctet (kind : Kind) : Sound (firstOctetDecoder kind) :=
  sound_octet.bind fun _ => sound_ite (sound_fail_bind rfl _) (sound_pure _)

theorem sound_submit : Sound Submit.decoder :=
  (sound_firstOctet _).bind fun _ => sound_octet.bind fun _ => Address.sound_address.bind fun _ =>
    sound_octet.bind fun _ => sound_dataCoding.bind fun _ => (sound_validity _).bind fun _ =>
      (UserData.sound_userData _ _ _).bind fun _ => sound_pure _

theorem sound_deliver : Sound Deliver.decoder :=
  (sound_firstOctet _).bind fun _ => Address.sound_address.bind fun _ => sound_octet.bind fun _ =>
    sound_dataCoding.bind fun _ => sound_timestamp.bind fun _ =>
      (UserData.sound_userData _ _ _).bind fun _ => sound_pure _

theorem sound_command : Sound Command.decoder :=
  (sound_firstOctet _).bind fun _ => sound_octet.bind fun _ => sound_octet.bind fun _ =>
    sound_octet.bind fun _ => sound_octet.bind fun _ => Address.sound_address.bind fun _ =>
      (UserData.sound_userData _ _ _).bind fun _ => sound_pure _

theorem sound_statusReport : Sound StatusReport.decoder := by
  refine (sound_firstOctet _).bind fun _ => sound_octet.bind fun _ => Address.sound_address.bind
    fun _ => sound_timestamp.bind fun _ => sound_timestamp.bind fun _ => sound_octet.bind fun _ =>
      sound_remaining.bind fun _ => sound_ite ?_ ?_
  · exact (sound_pure _).bind fun _ => sound_pure _
  · exact (Parameters.sound_parameters _).bind fun _ => sound_pure _

theorem sound_submitReport : Sound SubmitReport.decoder :=
  (sound_firstOctet _).bind fun _ => sound_failure.bind fun _ =>
    Parameters.sound_indicator.bind fun _ => sound_timestamp.bind fun _ =>
      (Parameters.sound_fields _ _).bind fun _ => sound_pure _

theorem sound_deliverReport : Sound DeliverReport.decoder :=
  (sound_firstOctet _).bind fun _ => sound_failure.bind fun _ =>
    (Parameters.sound_parameters _).bind fun _ => sound_pure _

namespace Message

/-- Once it is known which kind is read, no type is unknown. -/
theorem sound_decoderOf (kind : Kind) : Sound (decoderOf kind) := by
  cases kind with
  | submit => exact sound_submit.map _
  | deliver => exact sound_deliver.map _
  | command => exact sound_command.map _
  | statusReport => exact sound_statusReport.map _
  | submitReport => exact sound_submitReport.map _
  | deliverReport => exact sound_deliverReport.map _

/-- The octets begin with the type that no kind has. -/
def Reserved (s : Octets) : Prop := ∃ first rest, s = first :: rest ∧ first &&& 0x03 = 3

/-- A transfer message has an unknown type if it is the reserved one, whichever way it travels. -/
theorem unknownType_iff {direction : Direction} {s : Octets} {layer : Layer} {value : UInt8} :
    ofOctets direction s = .error (.unknownType layer value) ↔
      layer = .transfer ∧ value = 3 ∧ Reserved s := by
  have htype : ∀ first : UInt8, Kind.ofTypeBits? direction (first &&& 0x03) = none ↔
      first &&& 0x03 = 3 := by
    cases direction <;> decide +kernel
  rw [ofOctets, complete_eq_error rfl]
  cases s with
  | nil =>
    constructor
    · intro h
      cases h
    · rintro ⟨-, -, _, _, h, -⟩
      cases h
  | cons first rest =>
    rw [decoder, bind_apply, peek, Except.bind]
    dsimp only
    cases hkind : Kind.ofTypeBits? direction (first &&& 0x03) with
    | none =>
      have hthree := (htype first).1 hkind
      constructor
      · intro h
        cases h
        exact ⟨rfl, hthree, first, rest, rfl, hthree⟩
      · rintro ⟨rfl, rfl, -⟩
        rw [hthree]
        rfl
    | some kind =>
      constructor
      · intro h
        cases sound_decoderOf kind _ _ h
      · rintro ⟨-, -, _, _, ⟨⟩, hthree⟩
        rw [(htype first).2 hthree] at hkind
        cases hkind

end Message

end Transfer

/-! ## Messages of the relay layer -/

namespace Relay.Message

open Transfer.Message (Reserved)

variable {s t rest : Octets} {direction : Direction} {layer : Layer} {value : UInt8}

/-- The octets begin with these, behind their length. -/
def Begins (s t : Octets) : Prop :=
  t.length < 256 ∧ ∃ rest, s = UInt8.ofNat t.length :: (t ++ rest)

theorem innocent_checkReport (direction : Direction) (m : Transfer.Message) :
    Innocent (checkReport direction m) :=
  innocent_ite (innocent_ok _) (innocent_error rfl)

theorem innocent_checkData (m : Transfer.Message) : Innocent (checkData m) :=
  innocent_ite (innocent_error rfl) (innocent_ok _)

/-- What is carried may have an unknown type, and nothing behind it does. -/
theorem carried_fails {α : Type} {f : Transfer.Message → Decoder α} (hf : ∀ m, Sound (f m)) :
    (carriedDecoder direction >>= f) s = .error (.unknownType layer value) ↔
      layer = .transfer ∧ value = 3 ∧ ∃ t, Begins s t ∧ Reserved t := by
  rw [bind_fails_iff hf rfl, carriedDecoder, bind_fails sound_block rfl]
  constructor
  · rintro ⟨t, rest, hblock, h⟩
    obtain ⟨_, rfl, hlt, rfl⟩ := takes_block _ _ _ hblock
    cases hm : Transfer.Message.ofOctets direction t with
    | ok m =>
      rw [hm] at h
      cases h
    | error fault =>
      rw [hm] at h
      cases h
      obtain ⟨hlayer, hvalue, hreserved⟩ := Transfer.Message.unknownType_iff.1 hm
      exact ⟨hlayer, hvalue, t, ⟨hlt, rest, rfl⟩, hreserved⟩
  · rintro ⟨hlayer, hvalue, t, ⟨hlt, rest, rfl⟩, hreserved⟩
    refine ⟨t, rest, reads_block hlt rest, ?_⟩
    rw [Transfer.Message.unknownType_iff.2 ⟨hlayer, hvalue, hreserved⟩]
    rfl

theorem octet_eq_ok {b : UInt8} : octet s = .ok (b, rest) ↔ s = b :: rest := by
  constructor
  · intro h
    obtain ⟨_, rfl, rfl⟩ := takes_octet _ _ _ h
    rfl
  · rintro rfl
    rfl

theorem octet_bind_fails {α : Type} {f : UInt8 → Decoder α} :
    (octet >>= f) s = .error (.unknownType layer value) ↔
      ∃ b t, s = b :: t ∧ f b t = .error (.unknownType layer value) := by
  rw [bind_fails sound_octet rfl]
  simp only [octet_eq_ok]

/-- A report has an unknown type if its element comes first and what it carries has one. -/
theorem report_fails {α : Type} {f : Option Transfer.Message → Decoder α}
    (hf : ∀ report, Sound (f report)) :
    (reportDecoder direction >>= f) s = .error (.unknownType layer value) ↔
      layer = .transfer ∧ value = 3 ∧
        ∃ t t', s = reportElement :: t' ∧ Begins t' t ∧ Reserved t := by
  have hrest (m : Transfer.Message) : Sound do
      Decoder.ofExcept (checkReport direction m)
      return some m :=
    (sound_ofExcept (innocent_checkReport _ _)).bind fun _ => sound_pure _
  rw [bind_fails_iff hf rfl, reportDecoder, bind_fails sound_remaining rfl]
  constructor
  · rintro ⟨left, _, hleft, h⟩
    cases hleft
    split at h
    · cases h
    · obtain ⟨element, t', rfl, htail⟩ := octet_bind_fails.1 h
      split at htail
      · cases htail
      · rename_i helement
        obtain ⟨hlayer, hvalue, t, hbegins, hreserved⟩ := (carried_fails hrest).1 htail
        exact ⟨hlayer, hvalue, t, t', by rw [Decidable.not_not.1 helement], hbegins, hreserved⟩
  · rintro ⟨hlayer, hvalue, t, t', rfl, hbegins, hreserved⟩
    refine ⟨_, _, rfl, ?_⟩
    rw [if_neg (by simp), octet_bind_fails]
    refine ⟨_, _, rfl, ?_⟩
    rw [if_neg (not_not.2 rfl)]
    exact (carried_fails hrest).2 ⟨hlayer, hvalue, t, hbegins, hreserved⟩

theorem sound_cause : Sound causeDecoder := by
  refine sound_block.bind fun s => ?_
  split
  · exact sound_pure _
  · exact sound_pure _
  · exact sound_fail rfl

/-- A cause stands in one octet or in two. -/
theorem takes_causeForm : Takes (fun _ t => ∃ cause : Octets,
    (cause.length = 1 ∨ cause.length = 2) ∧ t = UInt8.ofNat cause.length :: cause)
    causeDecoder := by
  refine takes_block.bind fun s t ht => ?_
  obtain ⟨-, rfl⟩ := ht
  split
  · exact takes_pure ⟨_, .inl rfl, rfl⟩
  · exact takes_pure ⟨_, .inr rfl, rfl⟩
  · exact takes_fail _

theorem reads_causeForm {cause : Octets} (h : cause.length = 1 ∨ cause.length = 2) :
    ∃ p, Reads causeDecoder (UInt8.ofNat cause.length :: cause) p := by
  have hblock := reads_block (s := cause) (by omega)
  match cause, h with
  | [b], _ => exact ⟨_, hblock.last (reads_pure _)⟩
  | [b, d], _ => exact ⟨_, hblock.last (reads_pure _)⟩

/-- What a message carries, as far as the octets in front of it say: a type, whatever the bits above
it are, and then an address, or a cause and the key of an element, or the key alone. -/
inductive Carries : Octets → Octets → Prop
  | data {direction : Direction} {type reference : UInt8} {centre : Address}
      {address s t : Octets} (htype : type &&& 0x07 = typeFor dataType direction)
      (ha : centre.RelayForm address) (hs : Begins s t) :
      Carries (type :: reference :: (addresses direction address ++ s)) t
  | ack {direction : Direction} {type reference : UInt8} {s t : Octets}
      (htype : type &&& 0x07 = typeFor ackType direction) (hs : Begins s t) :
      Carries (type :: reference :: reportElement :: s) t
  | error {direction : Direction} {type reference : UInt8} {cause s t : Octets}
      (htype : type &&& 0x07 = typeFor errorType direction)
      (hcause : cause.length = 1 ∨ cause.length = 2) (hs : Begins s t) :
      Carries (type :: reference :: UInt8.ofNat cause.length :: (cause ++ reportElement :: s)) t

/-- Data has an unknown type if all is well up to what it carries, and that has one. -/
theorem data_fails : dataDecoder direction s = .error (.unknownType layer value) ↔
    layer = .transfer ∧ value = 3 ∧ ∃ reference centre address s' t,
      s = reference :: (addresses direction address ++ s') ∧
      Address.RelayForm centre address ∧ Begins s' t ∧ Reserved t := by
  have hrest (reference : UInt8) (centre : Address) (m : Transfer.Message) : Sound do
      Decoder.ofExcept (checkData m)
      return Message.data reference centre m :=
    (sound_ofExcept (innocent_checkData _)).bind fun _ => sound_pure _
  rw [dataDecoder, octet_bind_fails]
  constructor
  · rintro ⟨reference, s, rfl, h⟩
    rw [bind_fails Address.sound_relayAddress rfl] at h
    obtain ⟨originator, s₁, horiginator, h⟩ := h
    rw [bind_fails Address.sound_relayAddress rfl] at h
    obtain ⟨destination, s₂, hdestination, h⟩ := h
    obtain ⟨t₁, rfl, ho⟩ := Address.takes_relayForm _ _ _ horiginator
    obtain ⟨t₂, rfl, hd⟩ := Address.takes_relayForm _ _ _ hdestination
    cases direction with
    | toCentre =>
      dsimp only at h
      rcases ho with ⟨rfl, rfl⟩ | ⟨_, rfl, -⟩
      · rcases hd with ⟨rfl, -⟩ | ⟨centre, rfl, hform⟩
        · cases h
        · obtain ⟨hlayer, hvalue, t, hbegins, hreserved⟩ := (carried_fails (hrest _ _)).1 h
          exact ⟨hlayer, hvalue, reference, centre, t₂, s₂, t, by rw [addresses, List.append_assoc],
            hform, hbegins, hreserved⟩
      · cases h
    | toMobile =>
      dsimp only at h
      rcases hd with ⟨rfl, rfl⟩ | ⟨_, rfl, -⟩
      · rcases ho with ⟨rfl, -⟩ | ⟨centre, rfl, hform⟩
        · cases h
        · obtain ⟨hlayer, hvalue, t, hbegins, hreserved⟩ := (carried_fails (hrest _ _)).1 h
          exact ⟨hlayer, hvalue, reference, centre, t₁, s₂, t, by rw [addresses, List.append_assoc],
            hform, hbegins, hreserved⟩
      · cases h
  · rintro ⟨hlayer, hvalue, reference, centre, address, s', t, rfl, hform, hbegins, hreserved⟩
    refine ⟨_, _, rfl, ?_⟩
    have hcarried : layer = .transfer ∧ value = 3 ∧ ∃ t, Begins s' t ∧ Reserved t :=
      ⟨hlayer, hvalue, t, hbegins, hreserved⟩
    cases direction with
    | toCentre =>
      rw [addresses, List.append_assoc, bind_fails Address.sound_relayAddress rfl]
      refine ⟨_, _, Address.reads_absentRelay _, ?_⟩
      rw [bind_fails Address.sound_relayAddress rfl]
      exact ⟨_, _, Address.reads_relayForm hform _, (carried_fails (hrest _ _)).2 hcarried⟩
    | toMobile =>
      rw [addresses, List.append_assoc, bind_fails Address.sound_relayAddress rfl]
      refine ⟨_, _, Address.reads_relayForm hform _, ?_⟩
      rw [bind_fails Address.sound_relayAddress rfl]
      exact ⟨_, _, Address.reads_absentRelay _, (carried_fails (hrest _ _)).2 hcarried⟩

theorem ack_fails : ackDecoder direction s = .error (.unknownType layer value) ↔
    layer = .transfer ∧ value = 3 ∧ ∃ reference s' t,
      s = reference :: reportElement :: s' ∧ Begins s' t ∧ Reserved t := by
  rw [ackDecoder, octet_bind_fails]
  constructor
  · rintro ⟨reference, s, rfl, h⟩
    obtain ⟨hlayer, hvalue, t, s', rfl, hbegins, hreserved⟩ :=
      (report_fails fun _ => sound_pure _).1 h
    exact ⟨hlayer, hvalue, reference, s', t, rfl, hbegins, hreserved⟩
  · rintro ⟨hlayer, hvalue, reference, s', t, rfl, hbegins, hreserved⟩
    exact ⟨_, _, rfl, (report_fails fun _ => sound_pure _).2
      ⟨hlayer, hvalue, t, s', rfl, hbegins, hreserved⟩⟩

/-- In an error a cause of one or two octets stands in front of the report. -/
theorem error_fails : errorDecoder direction s = .error (.unknownType layer value) ↔
    layer = .transfer ∧ value = 3 ∧ ∃ reference cause s' t,
      s = reference :: UInt8.ofNat cause.length :: (cause ++ reportElement :: s') ∧
      (cause.length = 1 ∨ cause.length = 2) ∧ Begins s' t ∧ Reserved t := by
  rw [errorDecoder, octet_bind_fails]
  constructor
  · rintro ⟨reference, s, rfl, h⟩
    rw [bind_fails sound_cause rfl] at h
    obtain ⟨p, s₁, hread, h⟩ := h
    obtain ⟨_, rfl, cause, hcause, rfl⟩ := takes_causeForm _ _ _ hread
    obtain ⟨hlayer, hvalue, t, s', rfl, hbegins, hreserved⟩ :=
      (report_fails fun _ => sound_pure _).1 h
    exact ⟨hlayer, hvalue, reference, cause, s', t, rfl, hcause, hbegins, hreserved⟩
  · rintro ⟨hlayer, hvalue, reference, cause, s', t, rfl, hcause, hbegins, hreserved⟩
    refine ⟨_, _, rfl, ?_⟩
    obtain ⟨p, hread⟩ := reads_causeForm hcause
    rw [bind_fails sound_cause rfl]
    exact ⟨p, _, hread _, (report_fails fun _ => sound_pure _).2
      ⟨hlayer, hvalue, t, s', rfl, hbegins, hreserved⟩⟩

/-- The low three bits of a first octet are the type of a message that travels one way or the other,
unless they are all set. -/
theorem type_cases (type : UInt8) :
    (∃ direction, type &&& 0x07 = typeFor dataType direction) ∨
    (∃ direction, type &&& 0x07 = typeFor ackType direction) ∨
    (∃ direction, type &&& 0x07 = typeFor errorType direction) ∨
    type &&& 0x07 = memoryAvailableType ∨ type &&& 0x07 = 7 := by
  have hall : ∀ b : UInt8, b &&& 0x07 = 0 ∨ b &&& 0x07 = 1 ∨ b &&& 0x07 = 2 ∨ b &&& 0x07 = 3 ∨
      b &&& 0x07 = 4 ∨ b &&& 0x07 = 5 ∨ b &&& 0x07 = 6 ∨ b &&& 0x07 = 7 := by decide +kernel
  rcases hall type with h | h | h | h | h | h | h | h
  · exact .inl ⟨.toCentre, h⟩
  · exact .inl ⟨.toMobile, h⟩
  · exact .inr (.inl ⟨.toCentre, h⟩)
  · exact .inr (.inl ⟨.toMobile, h⟩)
  · exact .inr (.inr (.inl ⟨.toCentre, h⟩))
  · exact .inr (.inr (.inl ⟨.toMobile, h⟩))
  · exact .inr (.inr (.inr (.inl h)))
  · exact .inr (.inr (.inr (.inr h)))

/-- The octets begin with the type that no relay message has. -/
def Untyped (s : Octets) : Prop := ∃ type rest, s = type :: rest ∧ type &&& 0x07 = 7

/-- The message carries a transfer message of the reserved type. -/
def ReservedInside (s : Octets) : Prop := ∃ t, Carries s t ∧ Reserved t

/-- A relay message has an unknown type if no message has its own type, or if it carries a transfer
message of the reserved type. -/
theorem unknownType_iff : ofOctets s = .error (.unknownType layer value) ↔
    (layer = .relay ∧ value = 7 ∧ Untyped s) ∨
    (layer = .transfer ∧ value = 3 ∧ ReservedInside s) := by
  rw [ofOctets, complete_eq_error rfl, decoder, octet_bind_fails]
  constructor
  · rintro ⟨type, s, rfl, h⟩
    rcases type_cases type with ⟨direction, htype⟩ | ⟨direction, htype⟩ | ⟨direction, htype⟩ |
      htype | htype <;> rw [htype] at h
    · have hdata : dataDecoder direction s = .error (.unknownType layer value) := by
        cases direction <;> exact h
      obtain ⟨hlayer, hvalue, _, _, _, _, t, rfl, ha, hs, hreserved⟩ := data_fails.1 hdata
      exact .inr ⟨hlayer, hvalue, t, .data htype ha hs, hreserved⟩
    · have hack : ackDecoder direction s = .error (.unknownType layer value) := by
        cases direction <;> exact h
      obtain ⟨hlayer, hvalue, _, _, t, rfl, hs, hreserved⟩ := ack_fails.1 hack
      exact .inr ⟨hlayer, hvalue, t, .ack htype hs, hreserved⟩
    · have herror : errorDecoder direction s = .error (.unknownType layer value) := by
        cases direction <;> exact h
      obtain ⟨hlayer, hvalue, _, _, _, t, rfl, hcause, hs, hreserved⟩ := error_fails.1 herror
      exact .inr ⟨hlayer, hvalue, t, .error htype hcause hs, hreserved⟩
    · have hmap : Sound (memoryAvailable <$> octet) := sound_octet.map _
      exact nomatch hmap _ _ h
    · cases h
      exact .inl ⟨rfl, rfl, type, s, rfl, htype⟩
  · rintro (⟨rfl, rfl, type, rest, rfl, htype⟩ | ⟨rfl, rfl, t, hcarries, hreserved⟩)
    · refine ⟨type, rest, rfl, ?_⟩
      rw [htype]
      rfl
    · cases hcarries with
      | @data direction type reference centre address s t htype ha hs =>
        refine ⟨type, _, rfl, ?_⟩
        rw [htype]
        cases direction <;>
          exact data_fails.2 ⟨rfl, rfl, reference, centre, address, s, t, rfl, ha, hs, hreserved⟩
      | @ack direction type reference s t htype hs =>
        refine ⟨type, _, rfl, ?_⟩
        rw [htype]
        cases direction <;>
          exact ack_fails.2 ⟨rfl, rfl, reference, s, t, rfl, hs, hreserved⟩
      | @error direction type reference cause s t htype hcause hs =>
        refine ⟨type, _, rfl, ?_⟩
        rw [htype]
        cases direction <;>
          exact error_fails.2 ⟨rfl, rfl, reference, cause, s, t, rfl, hcause, hs, hreserved⟩

/-- An unknown type does not tell which of the two messages has it. -/
theorem exists_unknownType_iff : (∃ layer value, ofOctets s = .error (.unknownType layer value)) ↔
    Untyped s ∨ ReservedInside s := by
  simp only [unknownType_iff]
  constructor
  · rintro ⟨_, _, ⟨-, -, h⟩ | ⟨-, -, h⟩⟩
    · exact .inl h
    · exact .inr h
  · rintro (h | h)
    · exact ⟨.relay, 7, .inl ⟨rfl, rfl, h⟩⟩
    · exact ⟨.transfer, 3, .inr ⟨rfl, rfl, h⟩⟩

end Relay.Message

end ShortMessage
