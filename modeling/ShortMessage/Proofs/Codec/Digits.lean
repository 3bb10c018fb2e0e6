import ShortMessage.Proofs.Codec.Address

/-!
# Packed digits are read back, and nothing else is

`Digits.Packed` describes the octets of a digit string without the packing: two digits to an octet,
the first of them in the low half, and the fill nibble in the half that an odd number leaves over.
Packing makes these octets (`pack_iff_packed`) and unpacking accepts them and no others
(`unpack_iff_pack`), so that the two are inverse to each other.  What is accepted can be told from
the octets alone: only the high half of the last one may hold the fill nibble (`OnlyLastFilled`),
and where another half holds it the fill is what is wrong (`unpack_eq_misplacedFill`).
-/

namespace ShortMessage

/-! ## Digits and their symbols -/

theorem Digit.ofChar?_toChar (d : Digit) : ofChar? d.toChar = some d := by
  have hall : ∀ n : Fin 15, symbols.findIdx? (· = symbols.getD n ' ') = some n.val := by decide
  unfold ofChar? toChar
  rw [hall ⟨d.nibble, d.isDigit⟩]
  exact dif_pos d.isDigit

theorem Digit.toChar_of_ofChar? {c : Char} {d : Digit} (h : ofChar? c = some d) :
    d.toChar = c := by
  obtain ⟨n, hn, hd⟩ := Option.bind_eq_some_iff.1 h
  obtain ⟨hlt, hsymbol, -⟩ := List.findIdx?_eq_some_iff_getElem.1 hn
  have hlt' : n < 15 := hlt
  obtain rfl : d = ⟨n, hlt'⟩ := by
    rw [ofNibble?, dif_pos hlt'] at hd
    exact (Option.some.inj hd).symm
  rw [toChar, List.getD_eq_getElem?_getD, List.getElem?_eq_getElem hlt]
  exact of_decide_eq_true hsymbol

namespace Digits

/-- A digit string has one text, and a text is that of one digit string at most. -/
theorem ofChars_eq_ok {cs : List Char} {ds : Digits} : ofChars cs = .ok ds ↔ ds.toChars = cs := by
  constructor
  · intro h
    induction cs generalizing ds with
    | nil =>
      cases h
      rfl
    | cons c cs ih =>
      rw [ofChars] at h
      split at h
      · cases h
      · rename_i d hd
        obtain ⟨ds', hds, hcons⟩ := bind_eq_ok.1 h
        cases hcons
        rw [toChars, List.map_cons, Digit.toChar_of_ofChar? hd, ← toChars, ih hds]
  · rintro rfl
    induction ds with
    | nil => rfl
    | cons d ds ih =>
      rw [toChars, List.map_cons, ofChars, Digit.ofChar?_toChar, ← toChars]
      dsimp only
      rw [ih]
      rfl

/-! ## The format -/

/-- The octets of a digit string, octet by octet. -/
inductive Packed : Digits → Octets → Prop
  | nil : Packed [] []
  | filled {d : Digit} {b : UInt8} (hb : b.toNat = 16 * Digit.fillNibble + d.nibble) :
      Packed [d] [b]
  | pair {d e : Digit} {b : UInt8} {ds : Digits} {s : Octets}
      (hb : b.toNat = 16 * e.nibble + d.nibble) (hs : Packed ds s) :
      Packed (d :: e :: ds) (b :: s)

theorem toNat_pair {d e : Nat} (hd : d < 16) (he : e < 16) :
    (UInt8.ofNat (d + 16 * e)).toNat = 16 * e + d := by
  have hsmall : (UInt8.ofNat (d + 16 * e)).toNat = d + 16 * e := Nat.mod_eq_of_lt (by omega)
  rw [hsmall, Nat.add_comm]

theorem packed_pack (ds : Digits) : Packed ds ds.pack := by
  fun_induction pack ds with
  | case1 => exact .nil
  | case2 d => exact .filled (toNat_pair (Nat.lt_succ_of_lt d.isDigit) (by decide))
  | case3 d e ds ih =>
    refine .pair ?_ ih
    exact toNat_pair (Nat.lt_succ_of_lt d.isDigit) (Nat.lt_succ_of_lt e.isDigit)

/-- A digit string has one packed form. -/
theorem Packed.eq {ds : Digits} {s t : Octets} (hs : Packed ds s) (ht : Packed ds t) : s = t := by
  induction hs generalizing t with
  | nil =>
    cases ht
    rfl
  | filled hb =>
    cases ht with
    | filled hb' => rw [UInt8.toNat_inj.1 (hb.trans hb'.symm)]
  | pair hb _ ih =>
    cases ht with
    | pair hb' hs' => rw [UInt8.toNat_inj.1 (hb.trans hb'.symm), ih hs']

theorem pack_iff_packed {ds : Digits} {s : Octets} : ds.pack = s ↔ Packed ds s := by
  constructor
  · rintro rfl
    exact packed_pack ds
  · intro h
    exact (packed_pack ds).eq h

/-! ## The octets that are accepted -/

/-- No half octet holds the fill nibble, but for the high half of the last octet. -/
structure OnlyLastFilled (s : Octets) : Prop where
  low : ∀ b ∈ s, b.toNat % 16 ≠ Digit.fillNibble
  high : ∀ b ∈ s.dropLast, b.toNat / 16 ≠ Digit.fillNibble

theorem nibbles_append (s t : Octets) : nibbles (s ++ t) = nibbles s ++ nibbles t :=
  List.flatMap_append

theorem mem_nibbles {s : Octets} {n : Nat} :
    n ∈ nibbles s ↔ ∃ b ∈ s, n = b.toNat % 16 ∨ n = b.toNat / 16 := by
  simp [nibbles]

theorem nibbles_injective : Function.Injective nibbles := by
  intro s
  induction s with
  | nil =>
    intro t h
    cases t with
    | nil => rfl
    | cons => cases h
  | cons b s ih =>
    intro t h
    cases t with
    | nil => cases h
    | cons c t =>
      obtain ⟨hlow, h⟩ := List.cons.inj h
      obtain ⟨hhigh, h⟩ := List.cons.inj h
      have hb : b.toNat = c.toNat := by omega
      rw [UInt8.toNat_inj.1 hb, ih h]

/-- All half octets but the last one. -/
theorem onlyLastFilled_iff {s : Octets} :
    OnlyLastFilled s ↔ ∀ n ∈ (nibbles s).dropLast, n ≠ Digit.fillNibble := by
  obtain rfl | ⟨t, b, rfl⟩ := List.eq_nil_or_concat s
  · exact ⟨fun _ => by simp [nibbles], fun _ => ⟨by simp, by simp⟩⟩
  · have hhalves : (nibbles (t ++ [b])).dropLast = nibbles t ++ [b.toNat % 16] := by
      have hlast : nibbles [b] = [b.toNat % 16] ++ [b.toNat / 16] := rfl
      rw [nibbles_append, hlast, ← List.append_assoc, List.dropLast_concat]
    rw [List.concat_eq_append, hhalves]
    constructor
    · intro h n hn
      obtain hn | hn := List.mem_append.1 hn
      · obtain ⟨c, hc, rfl | rfl⟩ := mem_nibbles.1 hn
        · exact h.low c (List.mem_append_left _ hc)
        · exact h.high c (by rwa [List.dropLast_concat])
      · rw [List.mem_singleton.1 hn]
        exact h.low b (by simp)
    · intro h
      refine ⟨fun c hc => ?_, fun c hc => ?_⟩
      · obtain hc | hc := List.mem_append.1 hc
        · exact h _ (List.mem_append_left _ (mem_nibbles.2 ⟨c, hc, .inl rfl⟩))
        · rw [List.mem_singleton.1 hc]
          exact h _ (by simp)
      · rw [List.dropLast_concat] at hc
        exact h _ (List.mem_append_left _ (mem_nibbles.2 ⟨c, hc, .inr rfl⟩))

/-- How many digits all the octets hold. -/
def digitCount (s : Octets) : Nat := if endsInFill s then 2 * s.length - 1 else 2 * s.length

/-- The half octets that hold digits: the last one is left out when it is filled. -/
theorem take_digitCount (s : Octets) : (nibbles s).take (digitCount s) =
    if endsInFill s then (nibbles s).dropLast else nibbles s := by
  unfold digitCount
  split
  · rw [List.dropLast_eq_take, length_nibbles]
  · rw [← length_nibbles, List.take_length]

theorem unpack_eq (s : Octets) : unpack s = ofNibbles ((nibbles s).take (digitCount s)) := by
  have henough : ¬s.length < (digitCount s + 1) / 2 := by
    unfold digitCount
    split <;> omega
  exact if_neg henough

theorem ofNibbles_cases (ns : List Nat) :
    ((∀ n ∈ ns, n < 15) ∧ ∃ ds, ofNibbles ns = .ok ds) ∨
      ((∃ n ∈ ns, 15 ≤ n) ∧ ofNibbles ns = .error .misplacedFill) := by
  induction ns with
  | nil => exact .inl ⟨by simp, [], rfl⟩
  | cons n ns ih =>
    rw [ofNibbles, Digit.ofNibble?]
    by_cases hn : n < 15
    · rw [dif_pos hn]
      dsimp only
      obtain ⟨hall, ds, hds⟩ | ⟨⟨m, hm, hle⟩, hfault⟩ := ih
      · left
        refine ⟨?_, ⟨n, hn⟩ :: ds, by rw [hds]; rfl⟩
        intro m hm
        obtain rfl | hm := List.mem_cons.1 hm
        · exact hn
        · exact hall m hm
      · right
        exact ⟨⟨m, List.mem_cons_of_mem _ hm, hle⟩, by rw [hfault]; rfl⟩
    · rw [dif_neg hn]
      right
      exact ⟨⟨n, List.mem_cons_self, by omega⟩, rfl⟩

/-- Outside the last half octet the halves that hold digits are all there are. -/
theorem onlyLastFilled_iff_take {s : Octets} :
    OnlyLastFilled s ↔ ∀ n ∈ (nibbles s).take (digitCount s), n < 15 := by
  have hhalf : ∀ n ∈ nibbles s, n < 16 := by
    intro n hn
    obtain ⟨b, -, rfl | rfl⟩ := mem_nibbles.1 hn
    · omega
    · have hb := b.toNat_lt
      omega
  rw [onlyLastFilled_iff, take_digitCount]
  constructor
  · intro h n hn
    split at hn
    · have hne := h n hn
      have hlt := hhalf n (List.mem_of_mem_dropLast hn)
      unfold Digit.fillNibble at hne
      omega
    · rename_i hend
      have hlt := hhalf n hn
      suffices n ≠ Digit.fillNibble by
        unfold Digit.fillNibble at this
        omega
      rintro rfl
      -- The fill nibble can only be the last half, which it is not.
      have hne : nibbles s ≠ [] := List.ne_nil_of_mem hn
      rw [← List.dropLast_append_getLast hne] at hn
      obtain hn | hn := List.mem_append.1 hn
      · exact h _ hn rfl
      · rw [endsInFill_eq, List.getLast?_eq_some_getLast hne, ← List.mem_singleton.1 hn] at hend
        simp at hend
  · intro h n hn hfill
    have hlt : n < 15 := by
      refine h n ?_
      split
      · exact hn
      · exact List.mem_of_mem_dropLast hn
    exact absurd hfill (Nat.ne_of_lt hlt)

theorem exists_unpack_iff {s : Octets} : (∃ ds, unpack s = .ok ds) ↔ OnlyLastFilled s := by
  rw [unpack_eq, onlyLastFilled_iff_take]
  obtain ⟨hall, hok⟩ | ⟨⟨n, hn, hle⟩, hfault⟩ := ofNibbles_cases ((nibbles s).take (digitCount s))
  · exact iff_of_true hok hall
  · rw [hfault]
    refine iff_of_false (by rintro ⟨ds, ⟨⟩⟩) fun hall => ?_
    exact absurd (hall n hn) (Nat.not_lt.2 hle)

theorem unpack_eq_misplacedFill {s : Octets} :
    unpack s = .error .misplacedFill ↔ ¬OnlyLastFilled s := by
  rw [unpack_eq, onlyLastFilled_iff_take]
  obtain ⟨hall, ds, hds⟩ | ⟨⟨n, hn, hle⟩, hfault⟩ :=
    ofNibbles_cases ((nibbles s).take (digitCount s))
  · rw [hds]
    exact iff_of_false nofun (not_not.2 hall)
  · exact iff_of_true hfault fun hall => absurd (hall n hn) (Nat.not_lt.2 hle)

/-- Octets are read as the digits that they are the packed form of. -/
theorem unpack_iff_pack {ds : Digits} {s : Octets} : unpack s = .ok ds ↔ ds.pack = s := by
  constructor
  · intro h
    rw [unpack_eq] at h
    have htake := ofNibbles_eq_ok.1 h
    have hlength : ds.length = digitCount s := by
      have hle : digitCount s ≤ 2 * s.length := by
        unfold digitCount
        split <;> omega
      have htaken := congrArg List.length htake
      rw [List.length_take, length_nibbles, List.length_map] at htaken
      omega
    apply nibbles_injective
    rw [nibbles_pack, ← htake, take_digitCount, hlength, digitCount]
    by_cases hend : endsInFill s = true
    · -- The half that is left out is the fill nibble behind an odd number of digits.
      have hlast : (nibbles s).getLast? = some Digit.fillNibble := by
        rw [endsInFill_eq] at hend
        exact of_decide_eq_true hend
      have hpos : 0 < (nibbles s).length := by
        apply List.length_pos_of_ne_nil
        rintro hnil
        rw [hnil] at hlast
        cases hlast
      rw [length_nibbles] at hpos
      rw [if_pos hend, if_pos hend, if_neg (by omega)]
      exact List.dropLast_append_getLast? _ hlast
    · rw [if_neg hend, if_neg hend, if_pos (by omega), List.append_nil]
  · rintro rfl
    exact unpack_pack ds

theorem unpackCount_eq_incomplete {s : Octets} {count : Nat} :
    unpackCount s count = .error .incomplete ↔ s.length < (count + 1) / 2 := by
  unfold unpackCount
  split
  · exact iff_of_true rfl ‹_›
  · refine iff_of_false (fun h => ?_) ‹_›
    obtain ⟨-, ds, hds⟩ | ⟨-, hfault⟩ := ofNibbles_cases ((nibbles s).take count)
    · rw [hds] at h
      cases h
    · rw [hfault] at h
      cases h

/-- Digit strings, which are the texts of digits, and their packed forms belong to each other: what
is packed is read back, from all the octets or by the number of digits, and what is read was the
packed form of it.  Octets are no packed form exactly when the fill nibble is misplaced, and of a
number of digits they are too few exactly when they do not hold so many. -/
theorem packing_bijective :
    (∀ cs ds, ofChars cs = .ok ds ↔ toChars ds = cs) ∧
    (∀ ds s, pack ds = s ↔ Packed ds s) ∧
    (∀ ds s, unpack s = .ok ds ↔ pack ds = s) ∧
    (∀ ds, unpackCount (pack ds) ds.length = .ok ds) ∧
    (∀ s, (∃ ds, unpack s = .ok ds) ↔ OnlyLastFilled s) ∧
    (∀ s, unpack s = .error .misplacedFill ↔ ¬OnlyLastFilled s) ∧
    ∀ s count, unpackCount s count = .error .incomplete ↔ s.length < (count + 1) / 2 :=
  ⟨fun _ _ => ofChars_eq_ok, fun _ _ => pack_iff_packed, fun _ _ => unpack_iff_pack,
    unpackCount_pack, fun _ => exists_unpack_iff, fun _ => unpack_eq_misplacedFill,
    fun _ _ => unpackCount_eq_incomplete⟩

end Digits

end ShortMessage
