import ShortMessage.Proofs.Codec.Control

/-!
# The format of control messages

`Message.Form` describes the octets of a control message bit for bit, without the codec.  Reading
accepts these octets and no others (`form_of_ofOctets`, `ofOctets_of_form`), and writing makes them
of every message that has a form at all, which are the `Canonical` ones (`encode_iff_form`).  So
the two are inverse to each other, and no message has two forms (`ofOctets_iff_encode`).
-/

namespace ShortMessage.Control

open Decoder

/-! ## The first octet -/

/-- The first octet of a message on this transaction: the flag, three bits of the value, and the
four bits that are the same on all short message traffic. -/
structure TransactionId.Heads (t : TransactionId) (first : UInt8) : Prop where
  value_le : t.value ≤ 7
  bits : first.toNat = 128 * t.flag.toNat + 16 * t.value.toNat + 9

namespace TransactionId

variable {t : TransactionId} {first : UInt8}

theorem heads_octet (h : t.value ≤ 7) : t.Heads t.octet := by
  have hall : ∀ (flag : Bool) (value : UInt8), value ≤ 7 →
      (Bits.flag flag 0x80 ||| (value &&& 0x07) <<< 4 ||| discriminator).toNat =
        128 * flag.toNat + 16 * value.toNat + 9 := by
    decide +kernel
  exact ⟨h, hall t.flag t.value h⟩

/-- Only one octet heads the messages of a transaction. -/
theorem Heads.eq_octet (h : t.Heads first) : first = t.octet :=
  UInt8.toNat_inj.1 (h.bits.trans (heads_octet h.value_le).bits.symm)

theorem heads_of_ofOctet (h : ofOctet first = .ok t) : t.Heads first := by
  have hall : ∀ b : UInt8, b &&& 0x0F = discriminator → b >>> 4 &&& 0x07 ≤ 7 ∧
      b.toNat = 128 * (Bits.has b 0x80).toNat + 16 * (b >>> 4 &&& 0x07).toNat + 9 := by
    decide +kernel
  unfold ofOctet at h
  split at h
  · rename_i hlow
    cases h
    exact ⟨(hall first hlow).1, (hall first hlow).2⟩
  · cases h

end TransactionId

namespace Cause

theorem code_ofCode : ∀ b : UInt8, (ofCode b).code = b := by decide +kernel

end Cause

/-! ## Whole messages -/

namespace Message

variable {m : Message} {s s' : Octets}

/-- The octets of a message: the transaction, the type, and what belongs to the type. -/
inductive Form : Message → Octets → Prop
  | data {t : TransactionId} {first length : UInt8} {payload : Octets} (hfirst : t.Heads first)
      (hlength : length.toNat = payload.length) (hshort : payload.length ≤ 248) :
      Form (.data t payload) (first :: 0x01 :: length :: payload)
  | ack {t : TransactionId} {first : UInt8} (hfirst : t.Heads first) : Form (.ack t) [first, 0x04]
  | error {t : TransactionId} {first cause : UInt8} (hfirst : t.Heads first) :
      Form (.error t (Cause.ofCode cause)) [first, 0x10, cause]

/-- The value of the transaction fits its three bits, and a cause is the one that its octet
stands for. -/
structure Canonical (m : Message) : Prop where
  value_le : m.transaction.value ≤ 7
  cause_eq : ∀ t cause, m = .error t cause → cause = Cause.ofCode cause.code

theorem Canonical.reread_eq (h : m.Canonical) : m.reread = m := by
  cases m with
  | data t payload => rfl
  | ack t => rfl
  | error t cause => rw [reread, ← h.cause_eq t cause rfl]

theorem canonical_of_form (h : Form m s) : m.Canonical := by
  cases h with
  | data hfirst hlength hshort => exact ⟨hfirst.value_le, nofun⟩
  | ack hfirst => exact ⟨hfirst.value_le, nofun⟩
  | error hfirst =>
    refine ⟨hfirst.value_le, ?_⟩
    rintro _ _ ⟨⟩
    rw [Cause.code_ofCode]

/-- Writing makes the octets of a message that has a form, and no others. -/
theorem encode_iff_form (hm : m.Canonical) : m.encode = .ok s ↔ Form m s := by
  cases m with
  | data t payload =>
    rw [encode_data]
    constructor
    · rintro ⟨hle, rfl⟩
      exact .data (TransactionId.heads_octet hm.value_le)
        (Nat.mod_eq_of_lt (Nat.lt_of_le_of_lt hle (by decide))) hle
    · rintro ⟨hfirst, hlength, hshort⟩
      refine ⟨hshort, ?_⟩
      rw [hfirst.eq_octet, ← hlength, UInt8.ofNat_toNat]
      rfl
  | ack t =>
    constructor
    · rintro ⟨⟩
      exact .ack (TransactionId.heads_octet hm.value_le)
    · intro h
      cases h with
      | ack hfirst =>
        rw [hfirst.eq_octet]
        rfl
  | error t cause =>
    constructor
    · rintro ⟨⟩
      have hform : Form (.error t (Cause.ofCode cause.code)) [t.octet, errorType, cause.code] :=
        .error (TransactionId.heads_octet hm.value_le)
      rwa [← hm.cause_eq t cause rfl] at hform
    · intro h
      cases h with
      | error hfirst =>
        rw [encode, Cause.code_ofCode, hfirst.eq_octet]
        rfl

/-- The octets taken for a message are a form of it. -/
theorem takes_form : Takes Form decoder := by
  refine takes_octet.bind fun first u hu => (takes_ofExcept _).bind fun t v ht => ?_
  obtain ⟨ht, rfl⟩ := ht
  subst hu
  have hfirst := TransactionId.heads_of_ofOctet ht
  refine takes_octet.bind fun type w hw => ?_
  subst hw
  -- The type settles what else is read.
  split
  · rename_i htype
    obtain rfl : type = 0x01 := UInt8.toNat_inj.1 htype
    refine takes_block.bind fun payload v hv => (takes_ofExcept _).bind fun _ w hw => ?_
    obtain ⟨hlt, rfl⟩ := hv
    obtain ⟨hcheck, rfl⟩ := hw
    have hshort : payload.length ≤ maxPayload := by
      by_contra hlong
      rw [checkPayload, if_neg hlong] at hcheck
      cases hcheck
    have hlength : (UInt8.ofNat payload.length).toNat = payload.length := Nat.mod_eq_of_lt hlt
    exact takes_pure (by simpa using Form.data hfirst hlength hshort)
  · rename_i htype
    obtain rfl : type = 0x04 := UInt8.toNat_inj.1 htype
    exact takes_pure (.ack hfirst)
  · rename_i htype
    obtain rfl : type = 0x10 := UInt8.toNat_inj.1 htype
    refine takes_octet.bind fun cause v hv => ?_
    subst hv
    exact takes_pure (.error hfirst)
  · exact takes_fail _

theorem form_of_ofOctets (h : ofOctets s = .ok m) : Form m s := takes_form.complete h

theorem ofOctets_of_form (h : Form m s) : ofOctets s = .ok m := by
  have hm := canonical_of_form h
  rw [ofOctets_of_encode ((encode_iff_form hm).2 h) hm.value_le, hm.reread_eq]

/-- Reading and writing are inverse to each other on the messages of the format, and whatever is
read is one of them, so that no message is read from two strings of octets. -/
theorem ofOctets_iff_encode :
    (∀ (m : Message) (s : Octets), m.Canonical →
      (ofOctets s = .ok m ↔ m.encode = .ok s) ∧ (m.encode = .ok s ↔ Form m s)) ∧
    (∀ (m : Message) (s : Octets), ofOctets s = .ok m → m.Canonical) ∧
    ∀ (m : Message) (s s' : Octets), ofOctets s = .ok m → ofOctets s' = .ok m → s = s' := by
  refine ⟨fun m s hm => ⟨⟨fun h => ?_, fun h => ?_⟩, encode_iff_form hm⟩,
    fun m s h => canonical_of_form (form_of_ofOctets h), fun m s s' h h' => ?_⟩
  · exact (encode_iff_form hm).2 (form_of_ofOctets h)
  · exact ofOctets_of_form ((encode_iff_form hm).1 h)
  · have hform := form_of_ofOctets h
    have hm := canonical_of_form hform
    have hs := (encode_iff_form hm).2 hform
    have hs' := (encode_iff_form hm).2 (form_of_ofOctets h')
    exact Except.ok.inj (hs.symm.trans hs')

/-- An error with a cause without a name, on the other side's transaction. -/
theorem ofOctets_iff_encode_unnamed :
    Canonical (.error ⟨true, 5⟩ (.other 200)) ∧
      ofOctets [0xD9, 0x10, 200] = .ok (.error ⟨true, 5⟩ (.other 200)) ∧
      Form (.error ⟨true, 5⟩ (.other 200)) [0xD9, 0x10, 200] := by
  have hm : Canonical (.error ⟨true, 5⟩ (.other 200)) := by
    refine ⟨by decide, ?_⟩
    rintro _ _ ⟨⟩
    rfl
  obtain ⟨hread, hform⟩ := ofOctets_iff_encode.1 _ [0xD9, 0x10, 200] hm
  exact ⟨hm, hread.2 rfl, hform.1 rfl⟩

end Message

end ShortMessage.Control
