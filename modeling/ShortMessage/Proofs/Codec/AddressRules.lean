import ShortMessage.Proofs.Codec.Rewriting

/-!
# Which addresses that are read are valid

The readers of addresses take the form of the value from the type of number and check nothing else,
while `Address.validate` also asks that text has no numbering plan and that digits do not have the
type of number of text.  What is read breaks one of these rules exactly when the octet that says
what kind of number it is has certain bits (`MisplannedText`, `NamesText`); the size is never at
fault (`validate_of_read`).
-/

namespace ShortMessage.Address

open Decoder

/-- The type of number in this octet is that of text. -/
def NamesText (kind : UInt8) : Prop := kind &&& 0x70 = 0x50

/-- The octet announces text and a numbering plan, which text does not have. -/
def MisplannedText (kind : UInt8) : Prop := NamesText kind ∧ kind &&& 0x0F ≠ 0

instance (kind : UInt8) : Decidable (NamesText kind) := inferInstanceAs (Decidable (_ = _))

instance (kind : UInt8) : Decidable (MisplannedText kind) := inferInstanceAs (Decidable (_ ∧ _))

theorem ofAddressOctet_eq_alphanumeric :
    ∀ kind, TypeOfNumber.ofAddressOctet kind = .alphanumeric ↔ NamesText kind := by
  decide +kernel

theorem ofAddressOctet_eq_unknown :
    ∀ kind, NumberingPlan.ofAddressOctet kind = .unknown ↔ kind &&& 0x0F = 0 := by
  decide +kernel

/-- Only valid addresses are written in the transfer form. -/
theorem validate_of_encode {a : Address} {s : Octets} (h : a.encode = .ok s) :
    a.validate = .ok () := by
  obtain ⟨u, hu, -⟩ := bind_eq_ok.1 h
  exact hu

/-- The octet behind the length decides what kind of number is read, and with it the form. -/
theorem takes_kind : Takes (fun a t => ∃ length kind raw, t = length :: kind :: raw ∧
    a.typeOfNumber = .ofAddressOctet kind ∧ a.plan = .ofAddressOctet kind ∧
      (NamesText kind → ∃ cs, a.value = .text cs)) decoder := by
  refine takes_octet.bind fun length t ht => ?_
  subst ht
  refine takes_ite (fun _ => takes_fail_bind _ _) fun _ => ?_
  refine takes_octet.bind fun kind t ht => ?_
  subst ht
  refine (takes_octets _).bind fun raw t ht => ?_
  obtain ⟨rfl, -⟩ := ht
  refine takes_ite (fun _ => ?_) fun hton => ?_
  · refine (takes_ofExcept _).bind fun units t ht => ?_
    obtain ⟨-, rfl⟩ := ht
    exact takes_pure ⟨length, kind, _, rfl, rfl, rfl, fun _ => ⟨_, rfl⟩⟩
  · refine (takes_ofExcept _).bind fun digits t ht => ?_
    obtain ⟨-, rfl⟩ := ht
    refine takes_pure ⟨length, kind, _, rfl, rfl, rfl, fun htext => ?_⟩
    exact absurd ((ofAddressOctet_eq_alphanumeric kind).2 htext) hton

/-- What the octet in front of the value tells of an address that is read in the transfer form. -/
theorem validate_of_decoder {s rest : Octets} {a : Address} (h : decoder s = .ok (a, rest)) :
    ∃ length kind raw, s = length :: kind :: raw ∧
      a.validate = if MisplannedText kind then .error (.field .textTypeOfNumber) else .ok () := by
  obtain ⟨t, rfl, length, kind, raw, rfl, hton, hplan, htext⟩ := takes_kind s a rest h
  refine ⟨length, kind, raw ++ rest, rfl, ?_⟩
  rw [← ofAddressOctet_eq_alphanumeric, ← hton] at htext
  by_cases hmis : MisplannedText kind
  · rw [if_pos hmis]
    obtain ⟨htype, hcode⟩ := hmis
    rw [← ofAddressOctet_eq_alphanumeric, ← hton] at htype
    rw [Ne, ← ofAddressOctet_eq_unknown, ← hplan] at hcode
    obtain ⟨cs, hcs⟩ := htext htype
    simp only [validate, hcs, htype, hcode, and_false, if_false]
  · rw [if_neg hmis]
    have hplain : a.Plain := by
      intro htype
      rw [hplan, ofAddressOctet_eq_unknown]
      rw [hton, ofAddressOctet_eq_alphanumeric] at htype
      by_cases hcode : kind &&& 0x0F = 0
      · exact hcode
      · exact absurd ⟨htype, hcode⟩ hmis
    obtain ⟨t, ht, hrewrites⟩ := takes_address _ _ _ h
    obtain ⟨w, hw, -⟩ := (hrewrites hplain).written
    exact validate_of_encode hw

/-- The same in the relay form, whose value is always digits. -/
theorem validate_of_relayDecoder {s rest : Octets} {a : Address}
    (h : relayDecoder s = .ok (some a, rest)) : ∃ length kind raw, s = length :: kind :: raw ∧
      a.validate = if NamesText kind then .error (.field .digitsAlphanumeric) else .ok () := by
  obtain ⟨t, rfl, ⟨hnone, -⟩ | ⟨a', ha', @⟨kind, raw, ds, hfits, hds⟩⟩⟩ := takes_relayForm _ _ _ h
  · cases hnone
  cases ha'
  refine ⟨_, kind, raw ++ rest, rfl, ?_⟩
  by_cases htext : NamesText kind
  · rw [if_pos htext]
    simp only [validate, (ofAddressOctet_eq_alphanumeric kind).2 htext, if_true]
  · rw [if_neg htext]
    refine validate_digits.2 ⟨fun hton => htext ((ofAddressOctet_eq_alphanumeric kind).1 hton), ?_⟩
    rw [Digits.packedLength_unpack hds]
    exact Nat.add_le_add_right hfits 2

/-- An address that is read is valid unless the octet behind its length announces text with a
numbering plan, or in the relay form text at all; no rule but these is ever broken.  In the relay
form it can be written again either way, in the transfer form if it is valid. -/
theorem validate_of_read (s : Octets) :
    (∀ a rest, decoder s = .ok (a, rest) → ∃ length kind raw, s = length :: kind :: raw ∧
      (a.validate = if MisplannedText kind then .error (.field .textTypeOfNumber) else .ok ()) ∧
      ((∃ t, a.encode = .ok t) ↔ ¬MisplannedText kind)) ∧
    (∀ a rest, relayDecoder s = .ok (some a, rest) → ∃ length kind raw, s = length :: kind :: raw ∧
      (a.validate = if NamesText kind then .error (.field .digitsAlphanumeric) else .ok ()) ∧
      ∃ t, a.encodeRelay = .ok t) := by
  constructor
  · intro a rest h
    obtain ⟨length, kind, raw, rfl, hvalidate⟩ := validate_of_decoder h
    refine ⟨length, kind, raw, rfl, hvalidate, ?_, ?_⟩
    · rintro ⟨t, ht⟩ hmis
      rw [if_pos hmis, validate_of_encode ht] at hvalidate
      cases hvalidate
    · intro hmis
      rw [if_neg hmis] at hvalidate
      unfold encode
      rw [hvalidate]
      obtain ⟨ton, plan, ds | cs⟩ := a
      · exact ⟨_, rfl⟩
      · obtain ⟨-, units, hunits, -⟩ := validate_text.1 hvalidate
        exact ⟨_, by simp only [hunits]; rfl⟩
  · intro a rest h
    obtain ⟨length, kind, raw, rfl, hvalidate⟩ := validate_of_relayDecoder h
    obtain ⟨t, ht, -, hrewrites⟩ := takes_relayAddress _ _ _ h
    obtain ⟨w, hw, -⟩ := (hrewrites a rfl).written
    exact ⟨length, kind, raw, rfl, hvalidate, w, hw⟩

/-- A name with the numbering plan of telephone numbers, and digits in the place of a name. -/
theorem validate_of_read_misnamed :
    (∃ a, decoder [0x02, 0xD1, 0xC1] = .ok (a, []) ∧
      a.validate = .error (.field .textTypeOfNumber)) ∧
    ∃ a, relayDecoder [0x02, 0xD0, 0x21] = .ok (some a, []) ∧
      a.validate = .error (.field .digitsAlphanumeric) := by
  constructor
  · have hread : decoder [0x02, 0xD1, 0xC1] = .ok (⟨.alphanumeric, .isdn, .text ['A']⟩, []) := by
      decide +kernel
    obtain ⟨_, kind, _, hs, hvalidate, -⟩ := (validate_of_read _).1 _ _ hread
    cases hs
    exact ⟨_, hread, hvalidate⟩
  · have hread : relayDecoder [0x02, 0xD0, 0x21] = .ok (some ⟨.alphanumeric, .unknown,
        .digits [⟨1, by decide⟩, ⟨2, by decide⟩]⟩, []) := by
      decide +kernel
    obtain ⟨_, kind, _, hs, hvalidate, -⟩ := (validate_of_read _).2 _ _ hread
    cases hs
    exact ⟨_, hread, hvalidate⟩

/-- So in neither form is all that is read valid. -/
theorem invalid_of_read :
    (¬∀ s a rest, decoder s = .ok (a, rest) → a.validate = .ok ()) ∧
      ¬∀ s a rest, relayDecoder s = .ok (some a, rest) → a.validate = .ok () := by
  constructor
  · intro h
    have hvalid := h [0x02, 0xD1, 0xC1] ⟨.alphanumeric, .isdn, .text ['A']⟩ [] (by decide +kernel)
    exact absurd hvalid (by decide +kernel)
  · intro h
    have hvalid := h [0x02, 0xD0, 0x21]
      ⟨.alphanumeric, .unknown, .digits [⟨1, by decide⟩, ⟨2, by decide⟩]⟩ [] (by decide +kernel)
    exact absurd hvalid (by decide +kernel)

end ShortMessage.Address
