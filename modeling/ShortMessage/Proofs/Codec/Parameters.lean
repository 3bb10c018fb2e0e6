import ShortMessage.Proofs.Codec.Fields
import ShortMessage.Proofs.Codec.UserData
import ShortMessage.Transfer.Parameters

/-!
# What reports carry is read back

The fields of a report are read back as the indicator announces them (`Parameters.reads_fields`),
and the user data of a message or a command as a reader finds it (`UserData.reads_message`,
`UserData.reads_command`).
-/

namespace ShortMessage

open Decoder

/-! ## User data of messages and of commands -/

namespace UserData

variable {u : UserData} {charset : CharacterSet} {header : Nat} {s : Octets}

/-- The length octet of a message counts up to its limit in every character set. -/
theorem admits_message (charset : CharacterSet) (h : header ≤ maxOctets) :
    Admits charset maxOctets header := by
  refine ⟨h, by decide, fun _ => ⟨by decide, ?_⟩⟩
  unfold headerUnits maxOctets at *
  omega

/-- A command has user data in octets only, and its length octet counts them. -/
theorem admits_command (h : header ≤ maxCommandOctets) :
    Admits .eightBit maxCommandOctets header :=
  ⟨h, by decide, by rintro ⟨⟩⟩

theorem reads_message (h : u.encode charset maxOctets = .ok s) :
    Reads (decoder charset u.hasHeader maxOctets) s (u.reread charset maxOctets) :=
  reads_userData h (admits_message charset)

theorem length_message (h : u.encode charset maxOctets = .ok s) : s.length ≤ maxOctets + 1 :=
  length_encode h (admits_message charset)

theorem reads_command (h : u.encode .eightBit maxCommandOctets = .ok s) :
    Reads (decoder .eightBit u.hasHeader maxCommandOctets) s
      (u.reread .eightBit maxCommandOctets) :=
  reads_userData h admits_command

theorem length_command (h : u.encode .eightBit maxCommandOctets = .ok s) :
    s.length ≤ maxCommandOctets + 1 :=
  length_encode h admits_command

end UserData

namespace Transfer

/-! ## The fields that the indicator announces -/

namespace Parameters

variable {α : Type} {d : Decoder α} {s : Octets} {a : α} {p : Parameters}

theorem reads_absent (d : Decoder α) : Reads (fieldDecoder false d) [] none := reads_pure none

theorem reads_present (h : Reads d s a) : Reads (fieldDecoder true d) s (some a) := h.map some

/-- The fields of a report as a reader finds them. -/
def reread (p : Parameters) : Parameters :=
  { p with userData := p.userData.map (·.reread (charsetOf p.coding) UserData.maxOctets) }

/-- A reader finds the same indicator, because no field comes or goes when it is read. -/
@[simp] theorem indicator_reread (p : Parameters) : p.reread.indicator = p.indicator := by
  simp [indicator, reread]

@[simp] theorem isEmpty_reread (p : Parameters) : p.reread.isEmpty = p.isEmpty := by
  rw [isEmpty, indicator_reread, isEmpty]

@[simp] theorem hasHeader_reread (p : Parameters) : p.reread.hasHeader = p.hasHeader := by
  unfold hasHeader reread
  cases p.userData <;> simp

/-- The bits of an indicator. -/
theorem indicator_bits (p : Parameters) : Bits.has p.indicator extensionBit = false ∧
    Bits.has p.indicator protocolBit = p.protocol.isSome ∧
    Bits.has p.indicator codingBit = p.coding.isSome ∧
    Bits.has p.indicator userDataBit = p.userData.isSome ∧
    Bits.has p.indicator failureBit = false := by
  unfold indicator
  generalize p.protocol.isSome = protocol
  generalize p.coding.isSome = coding
  generalize p.userData.isSome = userData
  decide +revert

/-- An indicator that announces nothing stands for no field. -/
theorem eq_empty (h : p.isEmpty = true) : p = {} := by
  have hnone {α : Type} {x : Option α} (hx : false = x.isSome) : x = none := by
    cases x with
    | none => rfl
    | some _ => cases hx
  obtain ⟨-, hprotocol, hcoding, huserData, -⟩ := p.indicator_bits
  rw [eq_of_beq h] at hprotocol hcoding huserData
  obtain ⟨protocol, coding, userData⟩ := p
  cases hnone hprotocol
  cases hnone hcoding
  cases hnone huserData
  rfl

theorem reads_indicator (p : Parameters) : Reads indicatorDecoder [p.indicator] p.indicator :=
  (reads_octet _).last (Reads.unless (by rw [p.indicator_bits.1]; decide) (reads_pure _))

/-- The octets of the user data, if there is any. -/
def encodeUserData (p : Parameters) : Except Fault Octets :=
  match p.userData with
  | none => .ok []
  | some u => u.encode (charsetOf p.coding) UserData.maxOctets

/-- Protocol and coding scheme have an octet each; only user data can fail. -/
theorem encodeFields_eq_ok : p.encodeFields = .ok s ↔ ∃ data, p.encodeUserData = .ok data ∧
    s = p.protocol.toList ++ (p.coding.map DataCoding.octet).toList ++ data := by
  unfold encodeFields encodeUserData
  cases p.userData <;>
    simp only [bind_eq_ok, pure_eq_ok, pure_bind, Except.ok.injEq, exists_eq_left']

theorem encode_eq_ok : p.encode = .ok s ↔
    ∃ fields, p.encodeFields = .ok fields ∧ s = p.indicator :: fields := by
  simp only [encode, bind_eq_ok, pure_eq_ok]

theorem encodeUserData_reread {data : Octets} (h : p.encodeUserData = .ok data) :
    p.reread.encodeUserData = .ok data := by
  unfold encodeUserData reread at *
  cases hu : p.userData with
  | none => rwa [hu] at h
  | some u =>
    rw [hu] at h
    exact UserData.encode_reread h

theorem encodeFields_reread (h : p.encodeFields = .ok s) : p.reread.encodeFields = .ok s := by
  obtain ⟨data, hdata, rfl⟩ := encodeFields_eq_ok.1 h
  exact encodeFields_eq_ok.2 ⟨data, encodeUserData_reread hdata, rfl⟩

/-- What a reader finds is written as the same octets. -/
theorem encode_reread (h : p.encode = .ok s) : p.reread.encode = .ok s := by
  obtain ⟨fields, hfields, rfl⟩ := encode_eq_ok.1 h
  exact encode_eq_ok.2 ⟨fields, encodeFields_reread hfields, by rw [indicator_reread]⟩

/-- At most three octets stand beside the user data: its length, and the two fields before it. -/
theorem length_encodeFields (h : p.encodeFields = .ok s) :
    s.length ≤ UserData.maxOctets + 3 := by
  obtain ⟨data, hdata, rfl⟩ := encodeFields_eq_ok.1 h
  have hprotocol : p.protocol.toList.length ≤ 1 := by cases p.protocol <;> simp
  have hcoding : (p.coding.map DataCoding.octet).toList.length ≤ 1 := by cases p.coding <;> simp
  have hlength : data.length ≤ UserData.maxOctets + 1 := by
    unfold encodeUserData at hdata
    split at hdata
    · cases hdata
      exact Nat.zero_le _
    · exact UserData.length_message hdata
  rw [List.length_append, List.length_append]
  omega

theorem length_encode (h : p.encode = .ok s) : s.length ≤ UserData.maxOctets + 4 := by
  obtain ⟨fields, hfields, rfl⟩ := encode_eq_ok.1 h
  exact Nat.succ_le_succ (length_encodeFields hfields)

/-- The fields are read back as the indicator announces them. -/
theorem reads_fields (h : p.encodeFields = .ok s) :
    Reads (fieldsDecoder p.indicator p.hasHeader) s p.reread := by
  obtain ⟨data, hdata, rfl⟩ := encodeFields_eq_ok.1 h
  obtain ⟨-, hprotocol, hcoding, huserData, -⟩ := p.indicator_bits
  have hreadProtocol : Reads (fieldDecoder (Bits.has p.indicator protocolBit) octet)
      p.protocol.toList p.protocol := by
    rw [hprotocol]
    cases p.protocol with
    | none => exact reads_absent _
    | some b => exact reads_present (reads_octet b)
  have hreadCoding : Reads (fieldDecoder (Bits.has p.indicator codingBit) DataCoding.decoder)
      (p.coding.map DataCoding.octet).toList p.coding := by
    rw [hcoding]
    cases p.coding with
    | none => exact reads_absent _
    | some c => exact reads_present (reads_dataCoding c)
  have hreadData : Reads (fieldDecoder (Bits.has p.indicator userDataBit)
      (UserData.decoder (charsetOf p.coding) p.hasHeader UserData.maxOctets)) data
      p.reread.userData := by
    rw [huserData]
    unfold encodeUserData at hdata
    unfold hasHeader reread
    cases hu : p.userData with
    | none =>
      rw [hu] at hdata
      cases hdata
      exact reads_absent _
    | some u =>
      rw [hu] at hdata
      exact reads_present (UserData.reads_message hdata)
  rw [List.append_assoc]
  exact Reads.bind hreadProtocol (Reads.bind hreadCoding (hreadData.last (reads_pure _)))

/-- The indicator is read first, and says what follows. -/
theorem reads_parameters (h : p.encode = .ok s) :
    Reads (Parameters.decoder p.hasHeader) s p.reread := by
  obtain ⟨fields, hfields, rfl⟩ := encode_eq_ok.1 h
  exact Reads.bind (reads_indicator p) (reads_fields hfields)

end Parameters

/-! ## The cause of a failure -/

/-- A cause is written only if its failure bit tells it from an indicator. -/
theorem encodeFailure_eq_ok {cause : Option UInt8} {s : Octets} : encodeFailure cause = .ok s ↔
    (∀ b ∈ cause, Bits.has b failureBit = true) ∧ s = cause.toList := by
  cases cause with
  | none => exact ⟨fun h => ⟨nofun, (Except.ok.inj h).symm⟩, fun h => h.2 ▸ rfl⟩
  | some b =>
    unfold encodeFailure
    dsimp only
    split
    · rename_i hb
      exact ⟨fun h => ⟨fun _ hc => Option.some.inj hc ▸ hb, (Except.ok.inj h).symm⟩,
        fun h => h.2 ▸ rfl⟩
    · rename_i hb
      exact ⟨nofun, fun h => absurd (h.1 b rfl) hb⟩

/-- A cause is told from what stands behind it. -/
theorem reads_failure {α : Type} {cause : Option UInt8} {f : Option UInt8 → Decoder α}
    {s t : Octets} {x : UInt8} {a : α} (h : encodeFailure cause = .ok s)
    (hx : Bits.has x failureBit = false) (hf : Reads (f cause) (x :: t) a) :
    Reads (failureDecoder >>= f) (s ++ x :: t) a := by
  obtain ⟨hbit, rfl⟩ := encodeFailure_eq_ok.1 h
  cases cause with
  | none =>
    intro rest
    have hnone : failureDecoder (x :: (t ++ rest)) = .ok (none, x :: (t ++ rest)) := by
      show (if Bits.has x failureBit then some <$> octet else pure none :
        Decoder (Option UInt8)) _ = _
      rw [if_neg (by simp [hx])]
      rfl
    rw [Option.toList_none, List.nil_append, bind_apply, List.cons_append, hnone]
    exact hf rest
  | some cause =>
    have hsome : Reads failureDecoder [cause] (some cause) :=
      Reads.peek (Reads.when (hbit cause rfl) ((reads_octet cause).map some))
    exact Reads.bind hsome hf

end Transfer

end ShortMessage
