import Mathlib.Data.List.Forall2
import ShortMessage.Proofs.Codec.Rewriting

/-!
# The format of headers

The octets of a header are a row of entries, each a key, a length and as many octets of value.
What an entry says depends on its key and its length together.  Both are described here without
the codec, and reading and writing are compared with them.

* `Element.Interprets` — what a key and a value say, which is the element that a reader makes of
  them (`Element.interprets_iff`), and which elements a reader finds as they were written
  (`Element.reread_eq_self_iff`);
* `Header.Entry` — one entry, whose length is the right one by its type;
* `Header.ofOctets_eq_ok_iff`, `Header.ofOctets_eq_error_iff` — a row of entries is read as what
  they say, and all else is refused as incomplete;
* `Header.serialisation_inverse` — what is read is written as the same octets, and what is written
  is read as the same elements, each as its key and value say.
-/

namespace ShortMessage

open Decoder

/-! ## What a key and a value say -/

namespace Element

variable {key : UInt8} {value : Octets} {e e' : Element}

/-- The keys that are read into fields, each with the length of the values that hold them. -/
def knownShapes : List (UInt8 × Nat) := [(0x00, 3), (0x04, 2), (0x05, 4), (0x08, 4)]

/-- A known key whose value has the length for it says what the fields are, of two octets the
higher one first; otherwise the key and the value are kept. -/
inductive Interprets : UInt8 → Octets → Element → Prop
  | concatenated (reference total sequence : UInt8) :
      Interprets 0x00 [reference, total, sequence] (.concatenated reference total sequence)
  | ports (destination originator : UInt8) :
      Interprets 0x04 [destination, originator] (.ports destination originator)
  | widePorts {a b c d : UInt8} {destination originator : UInt16}
      (hdestination : destination.toNat = 256 * a.toNat + b.toNat)
      (horiginator : originator.toNat = 256 * c.toNat + d.toNat) :
      Interprets 0x05 [a, b, c, d] (.widePorts destination originator)
  | wideConcatenated {a b total sequence : UInt8} {reference : UInt16}
      (hreference : reference.toNat = 256 * a.toNat + b.toNat) :
      Interprets 0x08 [a, b, total, sequence] (.wideConcatenated reference total sequence)
  | generic {key : UInt8} {value : Octets} (hshape : (key, value.length) ∉ knownShapes) :
      Interprets key value (.generic key value)

theorem interprets_ofRaw (key : UInt8) (value : Octets) :
    Interprets key value (ofRaw key value) := by
  have hwide : ∀ a b : UInt8,
      (UInt16.ofNat (a.toNat * 256 + b.toNat)).toNat = 256 * a.toNat + b.toNat := by
    intro a b
    have ha := a.toNat_lt
    have hb := b.toNat_lt
    rw [UInt16.toNat_ofNat', Nat.mod_eq_of_lt (by omega), Nat.mul_comm]
  unfold ofRaw
  split
  · rename_i hkey
    obtain rfl : key = 0x00 := UInt8.toNat_inj.1 hkey
    exact .concatenated _ _ _
  · rename_i hkey
    obtain rfl : key = 0x04 := UInt8.toNat_inj.1 hkey
    exact .ports _ _
  · rename_i hkey
    obtain rfl : key = 0x05 := UInt8.toNat_inj.1 hkey
    exact .widePorts (hwide _ _) (hwide _ _)
  · rename_i hkey
    obtain rfl : key = 0x08 := UInt8.toNat_inj.1 hkey
    exact .wideConcatenated (hwide _ _)
  · -- A known shape would have been read by one of the cases before.
    rename_i hconcatenated hports hwidePorts hwideConcatenated
    refine .generic fun hmem => ?_
    simp only [knownShapes, List.mem_cons, Prod.mk.injEq, List.not_mem_nil, or_false] at hmem
    rcases hmem with ⟨rfl, hlength⟩ | ⟨rfl, hlength⟩ | ⟨rfl, hlength⟩ | ⟨rfl, hlength⟩
    · obtain ⟨a, b, c, rfl⟩ := List.length_eq_three.1 hlength
      exact hconcatenated a b c rfl rfl
    · obtain ⟨a, b, rfl⟩ := List.length_eq_two.1 hlength
      exact hports a b rfl rfl
    · obtain ⟨a, b, c, d, rfl⟩ := List.length_eq_four.1 hlength
      exact hwidePorts a b c d rfl rfl
    · obtain ⟨a, b, c, d, rfl⟩ := List.length_eq_four.1 hlength
      exact hwideConcatenated a b c d rfl rfl

theorem Interprets.eq_generic (h : Interprets key value e)
    (hshape : (key, value.length) ∉ knownShapes) : e = .generic key value := by
  cases h with
  | generic => rfl
  | _ => exact absurd (by simp [knownShapes]) hshape

/-- A key and a value say only one thing. -/
theorem Interprets.unique (h : Interprets key value e) (h' : Interprets key value e') :
    e = e' := by
  by_cases hshape : (key, value.length) ∈ knownShapes
  · cases h with
    | concatenated reference total sequence =>
      cases h' with
      | concatenated => rfl
      | generic hno => exact absurd hshape hno
    | ports destination originator =>
      cases h' with
      | ports => rfl
      | generic hno => exact absurd hshape hno
    | widePorts hdestination horiginator =>
      cases h' with
      | widePorts hdestination' horiginator' =>
        rw [UInt16.toNat_inj.1 (hdestination.trans hdestination'.symm),
          UInt16.toNat_inj.1 (horiginator.trans horiginator'.symm)]
      | generic hno => exact absurd hshape hno
    | wideConcatenated hreference =>
      cases h' with
      | wideConcatenated hreference' =>
        rw [UInt16.toNat_inj.1 (hreference.trans hreference'.symm)]
      | generic hno => exact absurd hshape hno
    | generic hno => exact absurd hshape hno
  · rw [h.eq_generic hshape, h'.eq_generic hshape]

/-- A reader makes of a key and a value what they say. -/
theorem interprets_iff : Interprets key value e ↔ ofRaw key value = e := by
  constructor
  · exact (interprets_ofRaw key value).unique
  · rintro rfl
    exact interprets_ofRaw key value

/-- A reader finds an element as it was written, unless a known shape was written with nothing but
its key and value. -/
theorem reread_eq_self_iff :
    e.reread = e ↔ ∀ key value, e = .generic key value → (key, value.length) ∉ knownShapes := by
  have hpair : ∀ w : UInt16, w.toNat =
      256 * (UInt8.ofNat (w.toNat / 256)).toNat + (UInt8.ofNat w.toNat).toNat := by
    intro w
    have hw := w.toNat_lt
    rw [UInt8.toNat_ofNat', UInt8.toNat_ofNat']
    omega
  rw [reread, ← interprets_iff]
  constructor
  · rintro h key value rfl
    cases h
    assumption
  · intro h
    cases e with
    | concatenated reference total sequence => exact .concatenated _ _ _
    | ports destination originator => exact .ports _ _
    | widePorts destination originator => exact .widePorts (hpair _) (hpair _)
    | wideConcatenated reference total sequence => exact .wideConcatenated (hpair _)
    | generic key value => exact .generic (h key value rfl)

theorem eq_incomplete_of_decoder {s : Octets} {fault : Fault} (h : decoder s = .error fault) :
    fault = .incomplete := by
  match s with
  | [] =>
    cases h
    rfl
  | [_] =>
    cases h
    rfl
  | key :: length :: s =>
    rw [decoder_cons_cons] at h
    split at h
    · cases h
      rfl
    · cases h

end Element

/-! ## Entries -/

namespace Header

/-- One entry of a header as it travels. -/
structure Entry where
  key : UInt8
  length : UInt8
  value : Octets
  length_eq : length.toNat = value.length

namespace Entry

/-- The key, the length and the value. -/
def octets (t : Entry) : Octets := t.key :: t.length :: t.value

/-- The element is what the key and the value of the entry say. -/
def Says (t : Entry) (e : Element) : Prop := Element.Interprets t.key t.value e

theorem says_ofRaw (t : Entry) : t.Says (.ofRaw t.key t.value) :=
  Element.interprets_ofRaw t.key t.value

end Entry

variable {raw out : Octets} {es : Header} {ts : List Entry} {fault : Fault}

theorem reads_entry {t : Entry} {e : Element} (h : t.Says e) :
    Reads Element.decoder t.octets e := by
  have hvalue : Reads (octets t.length.toNat) t.value t.value := reads_octets t.length_eq.symm
  exact Reads.bind (s := [_]) (reads_octet _) (Reads.last (Reads.bind (s := [_]) (reads_octet _)
    hvalue) (reads_pure_of_eq (Element.interprets_iff.1 h)))

/-- An element that is read is what an entry says. -/
theorem takes_entry :
    Takes (fun e s => ∃ t : Entry, s = t.octets ∧ t.Says e) Element.decoder := by
  refine takes_element.mono fun e s h => ?_
  obtain ⟨-, hencode, hsame⟩ := h
  obtain ⟨hlt, rfl⟩ := Element.encode_eq_ok.1 hencode
  exact ⟨⟨e.key, UInt8.ofNat e.value.length, e.value, Nat.mod_eq_of_lt hlt⟩, rfl,
    Element.interprets_iff.2 hsame⟩

/-! ## Rows of entries -/

theorem ofOctets_flatMap (h : List.Forall₂ Entry.Says ts es) :
    ofOctets (ts.flatMap Entry.octets) = .ok es := by
  induction h with
  | nil =>
    rw [ofOctets]
    rfl
  | @cons t e ts es ht hts ih =>
    have hne : t.octets ≠ [] := List.cons_ne_nil _ _
    rw [List.flatMap_cons, ofOctets_cons (reads_entry ht) hne, ih]
    rfl

theorem exists_entries_of_ofOctets (h : ofOctets raw = .ok es) :
    ∃ ts : List Entry, raw = ts.flatMap Entry.octets ∧ List.Forall₂ Entry.Says ts es := by
  fun_induction ofOctets raw generalizing es with
  | case1 raw hraw =>
    cases h
    exact ⟨[], List.isEmpty_iff.1 hraw, .nil⟩
  | case2 raw hraw fault hfault => cases h
  | case3 raw hraw e rest hread ih =>
    obtain ⟨es, hes, h⟩ := bind_eq_ok.1 h
    cases h
    obtain ⟨ts, rfl, hts⟩ := ih hes
    obtain ⟨_, rfl, t, rfl, ht⟩ := takes_entry _ _ _ hread
    exact ⟨t :: ts, rfl, .cons ht hts⟩

/-- A row of entries is read as what they say, and nothing else is read. -/
theorem ofOctets_eq_ok_iff : ofOctets raw = .ok es ↔
    ∃ ts : List Entry, raw = ts.flatMap Entry.octets ∧ List.Forall₂ Entry.Says ts es := by
  constructor
  · exact exists_entries_of_ofOctets
  · rintro ⟨ts, rfl, hts⟩
    exact ofOctets_flatMap hts

/-- Any row of entries is read, as every entry says something. -/
theorem exists_ofOctets_iff :
    (∃ es, ofOctets raw = .ok es) ↔ ∃ ts : List Entry, raw = ts.flatMap Entry.octets := by
  constructor
  · rintro ⟨es, h⟩
    obtain ⟨ts, hraw, -⟩ := exists_entries_of_ofOctets h
    exact ⟨ts, hraw⟩
  · rintro ⟨ts, rfl⟩
    have hts : List.Forall₂ Entry.Says ts (ts.map fun t => .ofRaw t.key t.value) :=
      List.forall₂_map_right_iff.2 (List.forall₂_same.2 fun t _ => t.says_ofRaw)
    exact ⟨_, ofOctets_flatMap hts⟩

theorem eq_incomplete_of_ofOctets (h : ofOctets raw = .error fault) : fault = .incomplete := by
  fun_induction ofOctets raw with
  | case1 raw hraw => cases h
  | case2 raw hraw fault hfault =>
    cases h
    exact Element.eq_incomplete_of_decoder hfault
  | case3 raw hraw e rest hread ih =>
    rcases bind_eq_fault.1 h with h | ⟨es, -, h⟩
    · exact ih h
    · cases h

/-- What is no row of entries is refused as incomplete. -/
theorem ofOctets_eq_error_iff : ofOctets raw = .error fault ↔
    fault = .incomplete ∧ ¬∃ ts : List Entry, raw = ts.flatMap Entry.octets := by
  rw [← exists_ofOctets_iff]
  constructor
  · intro h
    refine ⟨eq_incomplete_of_ofOctets h, ?_⟩
    rintro ⟨es, hes⟩
    rw [h] at hes
    cases hes
  · rintro ⟨rfl, hno⟩
    cases h : ofOctets raw with
    | error fault => rw [eq_incomplete_of_ofOctets h]
    | ok es => exact absurd ⟨es, h⟩ hno

-- The value is cut short.
example : ofOctets [0x24, 2, 1] = .error .incomplete := by cbv

/-! ## Reading and writing -/

/-- Elements that are read are written as the octets that they are read from. -/
theorem encode_of_ofOctets (h : ofOctets raw = .ok es) (hne : es ≠ []) (hlt : raw.length < 256) :
    encode es = .ok (UInt8.ofNat raw.length :: raw) := by
  rw [encode, if_neg (by simpa using hne), (encodeElements_of_ofOctets h).1]
  exact if_pos hlt

/-- Behind the length stand the octets of elements that a reader finds again. -/
theorem ofOctets_tail_of_encode (h : encode es = .ok out) (hne : out ≠ []) :
    ofOctets out.tail = .ok es.reread := by
  have hes : es.isEmpty = false := by
    cases es with
    | nil =>
      cases h
      exact absurd rfl hne
    | cons e es => rfl
  obtain ⟨raw, hraw, -, rfl⟩ := encode_eq_ok h hes
  exact ofOctets_encodeElements hraw

/-- Reading and writing are inverse to each other: what is read is written as its length and the
same octets, and what is written is read as the same elements, each as its key and value say.  The
rows of entries and no other octets are read, and they are read as what the entries say. -/
theorem serialisation_inverse :
    (∀ (raw : Octets) (es : Header), raw.length ≤ 255 → ofOctets raw = .ok es → es ≠ [] →
      ∃ length : UInt8, length.toNat = raw.length ∧ encode es = .ok (length :: raw)) ∧
    (∀ (es : Header) (out : Octets), encode es = .ok out → out ≠ [] →
      ofOctets out.tail = .ok (es.map fun e => .ofRaw e.key e.value)) ∧
    (∀ raw : Octets,
      (∃ es, ofOctets raw = .ok es) ↔ ∃ ts : List Entry, raw = ts.flatMap Entry.octets) ∧
    ∀ (raw : Octets) (es : Header), ofOctets raw = .ok es ↔
      ∃ ts : List Entry, raw = ts.flatMap Entry.octets ∧ List.Forall₂ Entry.Says ts es := by
  refine ⟨fun raw es hlength h hne => ?_, fun es out h hne => ofOctets_tail_of_encode h hne,
    fun raw => exists_ofOctets_iff, fun raw es => ofOctets_eq_ok_iff⟩
  have hlt : raw.length < 256 := Nat.lt_succ_of_le hlength
  exact ⟨UInt8.ofNat raw.length, Nat.mod_eq_of_lt hlt, encode_of_ofOctets h hne hlt⟩

/-- A part of a message, the same key with a value of another length, wide ports, and an unknown
key without a value. -/
def mixed : Header :=
  [.concatenated 7 2 1, .generic 0x00 [9], .widePorts 2948 9200, .generic 0x24 []]

/-- The octets of `mixed`. -/
def mixedOctets : Octets :=
  [0x00, 3, 7, 2, 1, 0x00, 1, 9, 0x05, 4, 0x0B, 0x84, 0x23, 0xF0, 0x24, 0]

/-- Elements of all sorts are read and written again; ports that were written as a mere value are
read as ports. -/
theorem serialisation_inverse_mixed :
    (mixedOctets.length ≤ 255 ∧ ofOctets mixedOctets = .ok mixed ∧ mixed ≠ [] ∧
      ∃ length : UInt8, length.toNat = 16 ∧ encode mixed = .ok (length :: mixedOctets)) ∧
    encode [.generic 0x04 [1, 2]] = .ok [4, 0x04, 2, 1, 2] ∧ [4, 0x04, 2, 1, 2] ≠ ([] : Octets) ∧
      ofOctets [0x04, 2, 1, 2] = .ok [.ports 1 2] := by
  obtain ⟨hwritten, hread, -, hrows⟩ := serialisation_inverse
  have hmixed : ofOctets mixedOctets = .ok mixed := by
    refine (hrows mixedOctets mixed).2 ⟨[⟨0x00, 3, [7, 2, 1], rfl⟩, ⟨0x00, 1, [9], rfl⟩,
      ⟨0x05, 4, [0x0B, 0x84, 0x23, 0xF0], rfl⟩, ⟨0x24, 0, [], rfl⟩], rfl, ?_⟩
    exact .cons (.concatenated 7 2 1) (.cons (.generic (by decide)) (.cons (.widePorts rfl rfl)
      (.cons (.generic (by decide)) .nil)))
  have hlength : mixedOctets.length ≤ 255 := by decide
  have hne : mixed ≠ [] := List.cons_ne_nil _ _
  exact ⟨⟨hlength, hmixed, hne, hwritten _ _ hlength hmixed hne⟩, rfl, List.cons_ne_nil _ _,
    hread [.generic 0x04 [1, 2]] [4, 0x04, 2, 1, 2] rfl (List.cons_ne_nil _ _)⟩

end Header

end ShortMessage
