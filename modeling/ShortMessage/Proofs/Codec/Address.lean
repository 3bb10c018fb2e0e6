import ShortMessage.Address.Basic
import ShortMessage.Proofs.Alphabet.Packing
import ShortMessage.Proofs.Alphabet.Text
import ShortMessage.Proofs.Codec.Reads

/-!
# Addresses are read back

What is written of an address is read in either form as the same address, but for the numbering
plan, of which four bits travel (`reads_address`, `reads_relayAddress`).  The transfer form knows
the number of digits, the relay form finds it by the fill nibble.
-/

namespace ShortMessage

open Decoder

/-! ## Digits -/

namespace Digits

theorem length_pack (ds : Digits) : ds.pack.length = ds.packedLength := by
  unfold packedLength
  fun_induction pack ds with
  | case1 => rfl
  | case2 d => simp
  | case3 d e ds ih =>
    rw [List.length_cons, ih]
    simp only [List.length_cons]
    omega

/-- The nibbles are those of the digits, and the fill nibble after an odd number of them. -/
theorem nibbles_pack (ds : Digits) : nibbles ds.pack =
    ds.map Digit.nibble ++ if ds.length % 2 = 0 then [] else [Digit.fillNibble] := by
  have hbyte : ∀ d e : Nat, d < 16 → e < 16 →
      (UInt8.ofNat (d + 16 * e)).toNat % 16 = d ∧ (UInt8.ofNat (d + 16 * e)).toNat / 16 = e := by
    intro d e hd he
    have hsmall : (UInt8.ofNat (d + 16 * e)).toNat = d + 16 * e := Nat.mod_eq_of_lt (by omega)
    rw [hsmall]
    omega
  fun_induction pack ds with
  | case1 => rfl
  | case2 d =>
    obtain ⟨hlow, hhigh⟩ := hbyte d.nibble 15 (Nat.lt_succ_of_lt d.isDigit) (by decide)
    unfold nibbles
    rw [List.flatMap_singleton, Digit.fillNibble, hlow, hhigh]
    rfl
  | case3 d e ds ih =>
    obtain ⟨hlow, hhigh⟩ :=
      hbyte d.nibble e.nibble (Nat.lt_succ_of_lt d.isDigit) (Nat.lt_succ_of_lt e.isDigit)
    unfold nibbles at ih ⊢
    rw [List.flatMap_cons, ih, hlow, hhigh]
    simp [Nat.add_assoc]

theorem ofNibbles_eq_ok {ns : List Nat} {ds : Digits} :
    ofNibbles ns = .ok ds ↔ ns = ds.map Digit.nibble := by
  induction ns generalizing ds with
  | nil =>
    rw [ofNibbles]
    cases ds <;> simp
  | cons n ns ih =>
    rw [ofNibbles, Digit.ofNibble?]
    by_cases hn : n < 15
    · simp only [dif_pos hn, bind_eq_ok, ih]
      constructor
      · rintro ⟨ds', rfl, h⟩
        cases h
        rfl
      · intro h
        cases ds with
        | nil => cases h
        | cons d ds =>
          obtain ⟨rfl, rfl⟩ := List.cons.inj h
          exact ⟨ds, rfl, rfl⟩
    · simp only [dif_neg hn]
      constructor
      · intro h
        cases h
      · intro h
        cases ds with
        | nil => cases h
        | cons d ds => exact absurd ((List.cons.inj h).1 ▸ d.isDigit) hn

theorem length_nibbles (s : Octets) : (nibbles s).length = 2 * s.length := by
  unfold nibbles
  induction s with
  | nil => rfl
  | cons b s ih =>
    rw [List.flatMap_cons, List.length_append, ih, List.length_cons, List.length_cons,
      List.length_cons, List.length_nil]
    omega

/-- As many digits are read as were asked for. -/
theorem length_unpackCount {s : Octets} {count : Nat} {ds : Digits}
    (h : unpackCount s count = .ok ds) : ds.length = count := by
  unfold unpackCount at h
  split at h
  · cases h
  · have hnibbles := congrArg List.length (ofNibbles_eq_ok.1 h)
    rw [List.length_take, length_nibbles, List.length_map] at hnibbles
    omega

/-- All digits together take as many octets as they were read from. -/
theorem packedLength_unpack {s : Octets} {ds : Digits} (h : unpack s = .ok ds) :
    ds.packedLength = s.length := by
  have hlength := length_unpackCount h
  rw [packedLength, hlength]
  split <;> omega

theorem unpackCount_pack (ds : Digits) : unpackCount ds.pack ds.length = .ok ds := by
  rw [unpackCount, if_neg (by rw [length_pack, packedLength]; exact Nat.lt_irrefl _), nibbles_pack,
    List.take_left' (List.length_map _), ofNibbles_eq_ok.2 rfl]

theorem endsInFill_eq (s : Octets) :
    endsInFill s = decide ((nibbles s).getLast? = some Digit.fillNibble) := by
  obtain rfl | ⟨t, b, rfl⟩ := List.eq_nil_or_concat s
  · rfl
  · simp [endsInFill, nibbles]

/-- The fill nibble stands at the end of an odd number of digits and of no other. -/
theorem endsInFill_pack (ds : Digits) : endsInFill ds.pack = decide (ds.length % 2 = 1) := by
  rw [endsInFill_eq, nibbles_pack]
  by_cases heven : ds.length % 2 = 0
  · rw [if_pos heven, List.append_nil, List.getLast?_map, heven]
    cases hlast : ds.getLast? with
    | none => rfl
    | some d =>
      have hne : d.nibble ≠ Digit.fillNibble := Nat.ne_of_lt d.isDigit
      simp [hne]
  · have hodd : ds.length % 2 = 1 := by omega
    simp [hodd]

theorem unpack_pack (ds : Digits) : unpack ds.pack = .ok ds := by
  have hcount : (if endsInFill ds.pack then 2 * ds.pack.length - 1 else 2 * ds.pack.length) =
      ds.length := by
    rw [endsInFill_pack, length_pack, packedLength]
    split <;> simp_all <;> omega
  rw [unpack, hcount, unpackCount_pack]

end Digits

/-! ## What kind of number it is -/

theorem TypeOfNumber.ofAddressOctet_kindOctet (a : Address) :
    ofAddressOctet a.kindOctet = a.typeOfNumber := by
  have hall : ∀ (ton : TypeOfNumber) (plan : UInt8),
      ofAddressOctet ((0x80 : UInt8) ||| ton.code <<< 4 ||| (plan &&& 0x0F)) = ton := by
    intro ton
    cases ton <;> decide +kernel
  exact hall a.typeOfNumber a.plan.code

namespace NumberingPlan

/-- A numbering plan as a reader finds it: of its value only the low four bits travel. -/
def reread (p : NumberingPlan) : NumberingPlan := ofCode (p.code &&& 0x0F)

theorem code_ofCode : ∀ b : UInt8, (ofCode b).code = b := by decide +kernel

@[simp] theorem reread_unknown : reread .unknown = .unknown := by decide

@[simp] theorem reread_ofAddressOctet (b : UInt8) :
    (ofAddressOctet b).reread = ofAddressOctet b := by
  rw [reread, ofAddressOctet, code_ofCode, UInt8.and_assoc, UInt8.and_self]

theorem ofAddressOctet_kindOctet (a : Address) : ofAddressOctet a.kindOctet = a.plan.reread := by
  have hall : ∀ (ton : TypeOfNumber) (plan : UInt8),
      ((0x80 : UInt8) ||| ton.code <<< 4 ||| (plan &&& 0x0F)) &&& 0x0F = plan &&& 0x0F := by
    intro ton
    cases ton <;> decide +kernel
  exact congrArg ofCode (hall a.typeOfNumber a.plan.code)

end NumberingPlan

namespace Address

variable {a : Address} {s : Octets}

/-- An address as a reader finds it. -/
def reread (a : Address) : Address := { a with plan := a.plan.reread }

@[simp] theorem kindOctet_reread (a : Address) : a.reread.kindOctet = a.kindOctet := by
  unfold kindOctet reread NumberingPlan.reread
  rw [NumberingPlan.code_ofCode, UInt8.and_assoc, UInt8.and_self]

/-- What the octet in front of a value says of an address with this value. -/
theorem reread_eq {value : Value} (hv : a.value = value) :
    a.reread = ⟨.ofAddressOctet a.kindOctet, .ofAddressOctet a.kindOctet, value⟩ := by
  rw [TypeOfNumber.ofAddressOctet_kindOctet, NumberingPlan.ofAddressOctet_kindOctet, reread, hv]

/-! ## The transfer form -/

section

variable {ton : TypeOfNumber} {plan : NumberingPlan} {ds : Digits} {cs : List Char} {u : Unit}

theorem validate_digits : validate ⟨ton, plan, .digits ds⟩ = .ok u ↔
    ton ≠ .alphanumeric ∧ ds.packedLength + 2 ≤ maxOctets := by
  unfold validate
  dsimp only
  split
  · simp_all
  · split <;> simp_all

theorem validate_text : validate ⟨ton, plan, .text cs⟩ = .ok u ↔
    (ton = .alphanumeric ∧ plan = .unknown) ∧
      ∃ units, Alphabet.unitsOf cs = .ok units ∧ (units.length * 7 + 7) / 8 + 2 ≤ maxOctets := by
  unfold validate
  dsimp only
  split
  · rename_i hkind
    rw [Alphabet.unitCount_eq]
    cases Alphabet.unitsOf cs with
    | error fault =>
      simp only [hkind, reduceCtorEq, false_and, exists_false, and_false, iff_false]
      rintro ⟨⟩
    | ok units =>
      simp only [hkind, true_and, and_self, Except.ok.injEq, exists_eq_left']
      show (if (units.length * 7 + 7) / 8 + 2 ≤ maxOctets then pure ()
        else throw (Fault.field (.textTooLong units.length)) : Except Fault Unit) = .ok u ↔ _
      split
      · exact iff_of_true rfl ‹_›
      · exact iff_of_false (by rintro ⟨⟩) ‹_›
  · simp_all

theorem encode_digits : encode ⟨ton, plan, .digits ds⟩ = .ok s ↔
    (ton ≠ .alphanumeric ∧ ds.packedLength + 2 ≤ maxOctets) ∧
      s = UInt8.ofNat ds.length :: kindOctet ⟨ton, plan, .digits ds⟩ :: ds.pack := by
  rw [encode, bind_eq_ok]
  simp only [validate_digits, exists_const]
  exact and_congr_right fun _ => ⟨fun h => (Except.ok.inj h).symm, fun h => h ▸ rfl⟩

theorem encode_text : encode ⟨ton, plan, .text cs⟩ = .ok s ↔
    (ton = .alphanumeric ∧ plan = .unknown) ∧ ∃ units, Alphabet.unitsOf cs = .ok units ∧
      (units.length * 7 + 7) / 8 + 2 ≤ maxOctets ∧ s = UInt8.ofNat ((units.length * 7 + 3) / 4) ::
        kindOctet ⟨ton, plan, .text cs⟩ :: Alphabet.pack units 0 := by
  rw [encode, bind_eq_ok]
  simp only [validate_text, exists_const, bind_eq_ok, and_assoc]
  refine and_congr_right fun _ => and_congr_right fun _ => ?_
  constructor
  · rintro ⟨⟨units, hunits, hfits⟩, units', hunits', h⟩
    cases hunits.symm.trans hunits'
    exact ⟨units, hunits, hfits, (Except.ok.inj h).symm⟩
  · rintro ⟨units, hunits, hfits, rfl⟩
    exact ⟨⟨units, hunits, hfits⟩, units, hunits, rfl⟩

end

/-- A reader finds an address that is written as the same octets. -/
theorem encode_reread (h : a.encode = .ok s) : a.reread.encode = .ok s := by
  have hkind := kindOctet_reread a
  obtain ⟨ton, plan, ds | cs⟩ := a
  · rw [encode_digits] at h
    exact encode_digits.2 (hkind ▸ h)
  · rw [encode_text] at h
    obtain ⟨⟨rfl, rfl⟩, h⟩ := h
    exact encode_text.2 ⟨⟨rfl, NumberingPlan.reread_unknown⟩, hkind ▸ h⟩

theorem length_encode (h : a.encode = .ok s) : s.length ≤ maxOctets := by
  obtain ⟨ton, plan, ds | cs⟩ := a
  · obtain ⟨⟨-, hfits⟩, rfl⟩ := encode_digits.1 h
    rw [List.length_cons, List.length_cons, Digits.length_pack]
    exact hfits
  · obtain ⟨-, units, -, hfits, rfl⟩ := encode_text.1 h
    rw [List.length_cons, List.length_cons, Alphabet.length_pack, Alphabet.packedLength,
      UInt8.toNat_zero]
    omega

/-- A valid address is read back in the transfer form. -/
theorem reads_address (h : a.encode = .ok s) : Reads Address.decoder s a.reread := by
  have hton := TypeOfNumber.ofAddressOctet_kindOctet a
  cases hv : a.value with
  | digits ds =>
    rw [reread_eq hv]
    obtain ⟨ton, plan, value⟩ := a
    cases hv
    obtain ⟨⟨hne, hfits⟩, rfl⟩ := encode_digits.1 h
    have hlength : (UInt8.ofNat ds.length).toNat = ds.length :=
      Nat.mod_eq_of_lt (by unfold Digits.packedLength maxOctets at hfits; omega)
    have hread : Digits.unpackCount ds.pack (UInt8.ofNat ds.length).toNat = .ok ds := by
      rw [hlength, Digits.unpackCount_pack]
    refine Reads.bind (reads_octet _) (Reads.unless ?_ (Reads.bind (reads_octet _)
      (Reads.last (reads_octets ?_) (Reads.unless ?_
        (Reads.last (reads_ofExcept hread) (reads_pure _))))))
    · rw [hlength]; exact Nat.not_lt.2 hfits
    · rw [hlength, Digits.length_pack]; rfl
    · rw [hton]; exact hne
  | text cs =>
    rw [reread_eq hv]
    obtain ⟨ton, plan, value⟩ := a
    cases hv
    obtain ⟨⟨hkind, -⟩, units, hunits, hfits, rfl⟩ := encode_text.1 h
    unfold maxOctets at hfits
    have hlength : (UInt8.ofNat ((units.length * 7 + 3) / 4)).toNat =
        (units.length * 7 + 3) / 4 := Nat.mod_eq_of_lt (by omega)
    have hcount : (units.length * 7 + 3) / 4 * 4 / 7 = units.length := by omega
    have hroom : (Alphabet.pack units 0).length = ((units.length * 7 + 3) / 4 + 1) / 2 := by
      rw [Alphabet.length_pack, Alphabet.packedLength, UInt8.toNat_zero]
      omega
    have hread := Alphabet.unpack_pack units 0
    rw [← hcount, ← hlength] at hread
    refine Reads.bind (reads_octet _) (Reads.unless ?_ (Reads.bind (reads_octet _)
      (Reads.last (reads_octets ?_) (Reads.when ?_
        (Reads.last (reads_ofExcept hread) (reads_pure_of_eq ?_))))))
    · rw [hlength]; unfold maxOctets; omega
    · rw [hlength]; exact hroom
    · rw [hton]; exact hkind
    · rw [Alphabet.textOf_masked, Alphabet.textOf_unitsOf hunits]

/-! ## The relay form -/

/-- An address that is left out. -/
theorem reads_absentRelay : Reads relayDecoder absentRelay none :=
  (reads_octet 0).last (Reads.when rfl (reads_pure none))

/-- The addresses that have a relay form, and what it is. -/
theorem encodeRelay_eq_ok : a.encodeRelay = .ok s ↔ ∃ ds, a.value = .digits ds ∧
    ds.packedLength ≤ maxRelayValue ∧
    s = UInt8.ofNat (1 + ds.packedLength) :: a.kindOctet :: ds.pack := by
  unfold encodeRelay
  split
  · rename_i cs hv
    simp [hv]
  · rename_i ds hv
    rw [hv]
    split
    · rename_i hfits
      simp [hfits, eq_comm]
    · rename_i hfits
      simp [hfits]

theorem length_encodeRelay (h : a.encodeRelay = .ok s) : s.length ≤ maxRelayValue + 2 := by
  obtain ⟨ds, -, hfits, rfl⟩ := encodeRelay_eq_ok.1 h
  rw [List.length_cons, List.length_cons, Digits.length_pack]
  omega

theorem encodeRelay_reread (h : a.encodeRelay = .ok s) : a.reread.encodeRelay = .ok s := by
  rw [encodeRelay_eq_ok] at *
  rwa [kindOctet_reread]

/-- The octets that are an address in the relay form. -/
inductive RelayForm : Address → Octets → Prop
  | intro {kind : UInt8} {raw : Octets} {ds : Digits} (hfits : raw.length ≤ maxRelayValue)
      (hds : Digits.unpack raw = .ok ds) :
      RelayForm ⟨.ofAddressOctet kind, .ofAddressOctet kind, .digits ds⟩
        (UInt8.ofNat (1 + raw.length) :: kind :: raw)

theorem reads_relayForm (h : RelayForm a s) : Reads relayDecoder s (some a) := by
  obtain @⟨kind, raw, ds, hfits, hds⟩ := h
  have hlength : (UInt8.ofNat (1 + raw.length)).toNat = 1 + raw.length :=
    Nat.mod_eq_of_lt (by unfold maxRelayValue at hfits; omega)
  refine Reads.bind (reads_octet _) (Reads.unless ?_ (Reads.unless ?_
    (Reads.bind (reads_octet _) (Reads.last (reads_octets ?_)
      (Reads.last (reads_ofExcept hds) (reads_pure _))))))
  · rw [hlength]; omega
  · rw [hlength]; omega
  · rw [hlength]; omega

/-- Whatever is read is an address in the relay form, or stands for one that is left out. -/
theorem takes_relayForm : Takes (fun a? t => (a? = none ∧ t = absentRelay) ∨
    ∃ a, a? = some a ∧ RelayForm a t) relayDecoder := by
  refine takes_octet.bind fun length t ht => ?_
  subst ht
  refine takes_ite (fun hzero => takes_pure (.inl ⟨rfl, ?_⟩)) fun hne => ?_
  · rw [← UInt8.ofNat_toNat (x := length), hzero]
    rfl
  refine takes_ite (fun _ => takes_fail_bind _ _) fun hfits => ?_
  refine takes_octet.bind fun kind t ht => ?_
  subst ht
  refine (takes_octets _).bind fun raw t ht => ?_
  obtain ⟨rfl, hraw⟩ := ht
  refine (takes_ofExcept _).bind fun ds t ht => ?_
  obtain ⟨hds, rfl⟩ := ht
  refine takes_pure (.inr ⟨_, rfl, ?_⟩)
  have hlength : length = UInt8.ofNat (1 + t.length) := by
    rw [hraw, Nat.add_sub_of_le (Nat.pos_of_ne_zero hne), UInt8.ofNat_toNat]
  rw [hlength, List.append_nil, List.append_nil]
  exact .intro (by omega) hds

/-- Digits are read back in the relay form. -/
theorem reads_relayAddress (h : a.encodeRelay = .ok s) : Reads relayDecoder s (some a.reread) := by
  obtain ⟨ds, hv, hfits, rfl⟩ := encodeRelay_eq_ok.1 h
  rw [reread_eq hv, ← Digits.length_pack]
  exact reads_relayForm (.intro (by rwa [Digits.length_pack]) (Digits.unpack_pack ds))

end Address

end ShortMessage
