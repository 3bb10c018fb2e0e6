import ShortMessage.Proofs.Codec.Text

/-!
# User data is read back

What is written of user data is read as what a reader finds of it, `UserData.reread`: the header
with each element as its key and value say, and the longest part of the text that fits
(`UserData.reads_userData`).  Writing that again gives the same octets (`UserData.encode_reread`).
-/

namespace ShortMessage

open Decoder

/-! ## Elements and headers -/

/-- An element as a reader finds it. -/
def Element.reread (e : Element) : Element := ofRaw e.key e.value

/-- An element is its key, its length and its value, if the length fits an octet. -/
theorem Element.encode_eq_ok {e : Element} {s : Octets} : e.encode = .ok s ↔
    e.value.length < 256 ∧ s = e.key :: UInt8.ofNat e.value.length :: e.value := by
  unfold encode
  split
  · simp_all [eq_comm]
  · simp_all

@[simp] theorem Element.encode_reread (e : Element) : e.reread.encode = e.encode := by
  unfold encode reread
  rw [key_ofRaw, value_ofRaw]

@[simp] theorem Element.reread_ofRaw (key : UInt8) (value : Octets) :
    (ofRaw key value).reread = ofRaw key value := by
  rw [reread, key_ofRaw, value_ofRaw]

/-- An element is found under its key, with what its value stands for there. -/
theorem reads_element {e : Element} {s : Octets} (h : e.encode = .ok s) :
    Reads Element.decoder s e.reread := by
  obtain ⟨hlt, rfl⟩ := Element.encode_eq_ok.1 h
  exact Reads.bind (reads_octet _) (Reads.last (reads_block hlt) (reads_pure _))

namespace Header

variable {es : Header} {s raw : Octets}

/-- A header as a reader finds it. -/
def reread (es : Header) : Header := es.map Element.reread

/-- The octets of a header, its length octet included. -/
def size (es : Header) : Nat :=
  if es.isEmpty then 0 else 1 + (es.map fun e => 2 + e.value.length).sum

@[simp] theorem isEmpty_reread (es : Header) : es.reread.isEmpty = es.isEmpty := List.isEmpty_map

@[simp] theorem size_reread (es : Header) : es.reread.size = es.size := by
  simp [size, reread, Element.reread, Function.comp_def]

@[simp] theorem encodeElements_reread (es : Header) :
    encodeElements es.reread = encodeElements es := by
  induction es with
  | nil => rfl
  | cons e es ih =>
    rw [reread, List.map_cons, encodeElements, encodeElements, Element.encode_reread, ← ih]
    rfl

@[simp] theorem encode_reread (es : Header) : encode es.reread = encode es := by
  rw [encode, encode, isEmpty_reread, encodeElements_reread]

theorem length_encodeElements (h : encodeElements es = .ok raw) :
    raw.length = (es.map fun e => 2 + e.value.length).sum := by
  induction es generalizing raw with
  | nil => cases h; rfl
  | cons e es ih =>
    obtain ⟨s, hs, h⟩ := bind_eq_ok.1 h
    obtain ⟨t, ht, h⟩ := bind_eq_ok.1 h
    cases h
    obtain ⟨-, rfl⟩ := Element.encode_eq_ok.1 hs
    rw [List.length_append, ih ht, List.map_cons, List.sum_cons, List.length_cons,
      List.length_cons, Nat.add_comm 2]

/-- Elements are read one after the other. -/
theorem ofOctets_cons {e : Element} {t : Octets} (hs : Reads Element.decoder s e)
    (hne : s ≠ []) : ofOctets (s ++ t) = (ofOctets t).map (e :: ·) := by
  have hread : Element.decoder (s ++ t) = .ok (e, t) := hs t
  rw [ofOctets, if_neg (by simp [hne])]
  split
  · rename_i fault hfault
    rw [hread] at hfault
    cases hfault
  · rename_i e' rest hrest
    rw [hread] at hrest
    cases hrest
    cases ofOctets t <;> rfl

/-- A header is found with each element as a reader finds it. -/
theorem ofOctets_encodeElements (h : encodeElements es = .ok raw) :
    ofOctets raw = .ok es.reread := by
  induction es generalizing raw with
  | nil => cases h; rw [ofOctets]; rfl
  | cons e es ih =>
    obtain ⟨s, hs, h⟩ := bind_eq_ok.1 h
    obtain ⟨t, ht, h⟩ := bind_eq_ok.1 h
    cases h
    have hne : s ≠ [] := by rw [(Element.encode_eq_ok.1 hs).2]; exact List.cons_ne_nil _ _
    rw [ofOctets_cons (reads_element hs) hne, ih ht]
    rfl

/-- A header is written as a length octet with as many octets behind it. -/
theorem encode_eq_ok (h : encode es = .ok s) (hne : es.isEmpty = false) :
    ∃ raw, encodeElements es = .ok raw ∧ raw.length < 256 ∧
      s = UInt8.ofNat raw.length :: raw := by
  unfold encode at h
  rw [if_neg (by simp [hne])] at h
  obtain ⟨raw, hraw, h⟩ := bind_eq_ok.1 h
  split at h
  · rename_i hlt
    cases h
    exact ⟨raw, hraw, hlt, rfl⟩
  · cases h

/-- The size of a header is the number of its octets. -/
theorem length_encode (h : encode es = .ok s) : s.length = es.size := by
  cases hne : es.isEmpty with
  | true =>
    unfold encode at h
    rw [if_pos hne] at h
    cases h
    exact (if_pos hne).symm
  | false =>
    obtain ⟨raw, hraw, -, rfl⟩ := encode_eq_ok h hne
    rw [size, if_neg (by simp [hne]), ← length_encodeElements hraw, List.length_cons,
      Nat.add_comm]

theorem readHeader_encode (text : Octets) (h : encode es = .ok s) (hne : es.isEmpty = false) :
    UserData.readHeader (s ++ text) = .ok (es.reread, s.length) := by
  obtain ⟨raw, hraw, hlt, rfl⟩ := encode_eq_ok h hne
  have hlength : (UInt8.ofNat raw.length).toNat = raw.length := Nat.mod_eq_of_lt hlt
  rw [List.cons_append, UserData.readHeader, hlength, if_neg (by simp), List.take_left' rfl,
    ofOctets_encodeElements hraw]
  rfl

end Header

/-! ## Header and text -/

namespace UserData

variable {u : UserData} {charset : CharacterSet} {limit : Nat} {s : Octets}

/-- User data as a reader finds it: of the text the longest part that fits behind the header. -/
def reread (u : UserData) (charset : CharacterSet) (limit : Nat) : UserData :=
  ⟨u.header.reread, cut charset (roomFor charset limit u.header.size) u.text⟩

@[simp] theorem hasHeader_reread (u : UserData) (charset : CharacterSet) (limit : Nat) :
    (u.reread charset limit).hasHeader = u.hasHeader :=
  congrArg not (Header.isEmpty_reread u.header)

/-- User data is written as a length octet, the header and the text. -/
theorem encode_eq_ok : u.encode charset limit = .ok s ↔
    ∃ header length body, u.header.encode = .ok header ∧ header.length ≤ limit ∧
      encodeText u.text charset limit header.length = .ok (length, body) ∧
      s = length :: header ++ body := by
  rw [encode, bind_eq_ok]
  constructor
  · rintro ⟨header, hheader, h⟩
    split at h
    · cases h
    · obtain ⟨⟨length, body⟩, hbody, h⟩ := bind_eq_ok.1 h
      cases h
      exact ⟨header, length, body, hheader, Nat.not_lt.1 ‹_›, hbody, rfl⟩
  · rintro ⟨header, length, body, hheader, hle, hbody, rfl⟩
    refine ⟨header, hheader, ?_⟩
    rw [if_neg (Nat.not_lt.2 hle)]
    exact bind_eq_ok.2 ⟨(length, body), hbody, rfl⟩

/-- What a reader finds is written as the same octets. -/
theorem encode_reread (h : u.encode charset limit = .ok s) :
    (u.reread charset limit).encode charset limit = .ok s := by
  obtain ⟨header, length, body, hheader, hle, hbody, rfl⟩ := encode_eq_ok.1 h
  refine encode_eq_ok.2 ⟨header, length, body, ?_, hle, ?_, rfl⟩
  · rw [reread, Header.encode_reread, hheader]
  · rw [reread, ← Header.length_encode hheader]
    exact encodeText_cut hbody

/-- What is written of user data stands for the part of the text that fits. -/
theorem stands_of_encode (h : u.encode charset limit = .ok s)
    (ha : u.header.size ≤ limit → Admits charset limit u.header.size) :
    ∃ header n body, u.header.encode = .ok header ∧
      s = UInt8.ofNat (lengthFor charset header.length n) :: header ++ body ∧
      Stands charset limit header.length n (u.reread charset limit).text body := by
  obtain ⟨header, length, body, hheader, hle, hbody, rfl⟩ := encode_eq_ok.1 h
  rw [← Header.length_encode hheader] at ha
  have hcut := encodeText_cut hbody
  obtain ⟨n, hn, hroom⟩ :=
    fits_iff.1 (fits_cut charset (roomFor charset limit header.length) u.text)
  obtain ⟨body', hwritten, hstands⟩ := encodeText_of_fits hn hroom (ha hle)
  cases hcut.symm.trans hwritten
  refine ⟨header, n, body, hheader, rfl, ?_⟩
  rwa [reread, ← Header.length_encode hheader]

/-- User data keeps to its limit, and the length octet stands before it. -/
theorem length_encode (h : u.encode charset limit = .ok s)
    (ha : u.header.size ≤ limit → Admits charset limit u.header.size) : s.length ≤ limit + 1 := by
  obtain ⟨header, n, body, -, rfl, hstands⟩ := stands_of_encode h ha
  have := hstands.le_limit
  rw [List.length_append, List.length_cons]
  omega

/-- User data is read back as a reader finds it. -/
theorem reads_userData (h : u.encode charset limit = .ok s)
    (ha : u.header.size ≤ limit → Admits charset limit u.header.size) :
    Reads (UserData.decoder charset u.hasHeader limit) s (u.reread charset limit) := by
  obtain ⟨header, n, body, hheader, rfl, hstands⟩ := stands_of_encode h ha
  have hlength : (UInt8.ofNat (lengthFor charset header.length n)).toNat =
      lengthFor charset header.length n := Nat.mod_eq_of_lt hstands.length_lt
  have htext : readText charset (lengthFor charset header.length n) header.length
      ((header ++ body).drop header.length) = .ok (u.reread charset limit).text := by
    rw [List.drop_left' rfl]
    exact hstands.read
  refine Reads.bind (s := [_]) (reads_octet _) (Reads.unless ?_
    (Reads.last (reads_octets ?_) ?_))
  · rw [hlength, hstands.octets]
    exact Nat.not_lt.2 hstands.le_limit
  · rw [hlength, hstands.octets]
    exact List.length_append
  · rw [hlength]
    unfold hasHeader
    cases hne : u.header.isEmpty with
    | false =>
      exact Reads.when rfl (Reads.last (reads_ofExcept (Header.readHeader_encode body hheader hne))
        (Reads.last (reads_ofExcept htext) (reads_pure _)))
    | true =>
      have hnone : u.header = [] := List.isEmpty_iff.1 hne
      rw [hnone] at hheader
      cases hheader
      refine Reads.unless (by decide) (Reads.last (reads_pure _)
        (Reads.last (reads_ofExcept htext) (reads_pure_of_eq ?_)))
      rw [reread, hnone]
      rfl

end UserData

end ShortMessage
