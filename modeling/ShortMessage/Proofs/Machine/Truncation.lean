import ShortMessage.Proofs.Machine.UserData

/-!
# User data survives up to truncation

A text that is too long for its limit loses its end and nothing else.  Here is exactly what is
kept, and what stands in the way when nothing is written at all.

* `LongestFit` — the longest part of a text that fits, which is `cut` (`longestFit_cut`);
* `Unwritable` — the reasons for which user data is not written, one for each fault;
* `survives_truncation` — user data is written with all its octets or not at all, the latter only
  for such a reason, and what is written is read back as the header and the longest part of the
  text.
-/

namespace ShortMessage

/-! ## What stands in the way of a header -/

namespace Header

variable {es : Header} {fault : Fault}

theorem eq_of_encodeElements_eq_error (h : encodeElements es = .error fault) :
    fault = .field .elementTooLong ∧ ∃ e ∈ es, 255 < e.value.length := by
  induction es with
  | nil => cases h
  | cons e es ih =>
    rcases bind_eq_fault.1 h with h | ⟨s, -, h⟩
    · unfold Element.encode at h
      split at h
      · cases h
      · rename_i hlong
        cases h
        exact ⟨rfl, e, by simp, by omega⟩
    · rcases bind_eq_fault.1 h with h | ⟨t, -, h⟩
      · obtain ⟨hfault, e', he', hlong⟩ := ih h
        exact ⟨hfault, e', List.mem_cons_of_mem e he', hlong⟩
      · cases h

/-- A header is only refused for a length that an octet does not hold: of an element, or its own. -/
theorem eq_of_encode_eq_error (h : es.encode = .error fault) :
    (fault = .field .elementTooLong ∧ ∃ e ∈ es, 255 < e.value.length) ∨
      (fault = .field .headerTooLong ∧ 256 < es.size) := by
  unfold encode at h
  split at h
  · cases h
  · rename_i hne
    rcases bind_eq_fault.1 h with h | ⟨raw, hraw, h⟩
    · exact .inl (eq_of_encodeElements_eq_error h)
    · split at h
      · cases h
      · rename_i hlong
        cases h
        refine .inr ⟨rfl, ?_⟩
        rw [size, if_neg hne, ← length_encodeElements hraw]
        omega

end Header

namespace UserData

variable {charset : CharacterSet} {room limit header n : Nat} {c : Char} {cs text : List Char}
  {fault : Fault}

/-! ## What stands in the way of a text -/

/-- The longest part of a text, cut at a character, that the character set has and that takes no
more than this room. -/
structure LongestFit (charset : CharacterSet) (room : Nat) (text part : List Char) : Prop where
  begins : part <+: text
  fitting : fits charset room part = true
  longest : ∀ q, q <+: text → fits charset room q = true → q.length ≤ part.length

theorem longestFit_cut (charset : CharacterSet) (room : Nat) (text : List Char) :
    LongestFit charset room text (cut charset room text) :=
  ⟨cut_isPrefix _ _ _, fits_cut _ _ _, fun _ hq hfits => length_le_length_cut hq hfits⟩

/-- The character set does not have the first character that is cut off.  This is what goes wrong
with a text: a character behind the cut that the character set has ends the text without a fault. -/
def StopsAt (charset : CharacterSet) (room : Nat) (text : List Char) (c : Char) : Prop :=
  charSize? charset c = none ∧ ∃ rest, text = cut charset room text ++ c :: rest

/-- A text that begins with a character which the set lacks stops there, whatever room there is. -/
theorem stopsAt_head (hc : charSize? charset c = none) : StopsAt charset room (c :: cs) c := by
  refine ⟨hc, cs, ?_⟩
  rw [cut_cons_of_lt fun k hk => absurd (hc.symm.trans hk) nofun]
  rfl

theorem StopsAt.cons {d : Char} (hc : charSize? charset c = some n) (hn : n ≤ room)
    (h : StopsAt charset (room - n) cs d) : StopsAt charset room (c :: cs) d := by
  obtain ⟨hd, rest, hrest⟩ := h
  refine ⟨hd, rest, ?_⟩
  rw [cut_cons hc hn, List.cons_append, ← hrest]

theorem stopsAt_of_unitsThatFit (h : unitsThatFit room text = .error fault) :
    ∃ c, fault = .unmappable c ∧ StopsAt .gsm7 room text c := by
  induction text generalizing room with
  | nil => cases h
  | cons c cs ih =>
    unfold unitsThatFit at h
    -- A character with a code either ends the text or leaves less room for the rest.
    cases hc : Alphabet.codeOf? c with
    | none =>
      rw [hc] at h
      cases h
      exact ⟨c, rfl, stopsAt_head (by rw [charSize?, Alphabet.charUnits?, hc]; rfl)⟩
    | some code =>
      rw [hc] at h
      dsimp only at h
      split at h
      · cases h
      · rename_i hle
        rcases bind_eq_fault.1 h with h | ⟨rest, -, h⟩
        · obtain ⟨d, hfault, hd⟩ := ih h
          exact ⟨d, hfault, hd.cons (charSize?_gsm7.2 ⟨code, hc, rfl⟩) (Nat.not_lt.1 hle)⟩
        · cases h

theorem stopsAt_of_octetsThatFit (h : octetsThatFit room text = .error fault) :
    ∃ c, fault = .unmappable c ∧ StopsAt .eightBit room text c := by
  induction text generalizing room with
  | nil =>
    rw [octetsThatFit] at h
    cases h
  | cons c cs ih =>
    unfold octetsThatFit at h
    -- Here the room is looked at first, so that any character may stand where it ends.
    cases room with
    | zero => cases h
    | succ room =>
      dsimp only at h
      split at h
      · rename_i hc
        rcases bind_eq_fault.1 h with h | ⟨rest, -, h⟩
        · obtain ⟨d, hfault, hd⟩ := ih h
          exact ⟨d, hfault, hd.cons (n := 1) (by simp [charSize?, hc]) (Nat.succ_pos room)⟩
        · cases h
      · rename_i hc
        cases h
        exact ⟨c, rfl, stopsAt_head (by simp [charSize?, hc])⟩

/-- In every character set a text is only refused for a character that the set lacks. -/
theorem stopsAt_of_encodeText (h : encodeText text charset limit header = .error fault) :
    ∃ c, fault = .unmappable c ∧ StopsAt charset (roomFor charset limit header) text c := by
  cases charset with
  | gsm7 =>
    rcases bind_eq_fault.1 h with h | ⟨units, -, h⟩
    · exact stopsAt_of_unitsThatFit h
    · cases h
  | eightBit =>
    rcases bind_eq_fault.1 h with h | ⟨octets, -, h⟩
    · exact stopsAt_of_octetsThatFit h
    · cases h
  | ucs2 => cases h

/-! ## What is written and what is read -/

/-- Why user data is not written: an element or the header is too long for its length octet, the
header is too long for the limit, or the first character behind the longest part that fits is one
that the character set does not have. -/
inductive Unwritable (u : UserData) (charset : CharacterSet) (limit : Nat) : Fault → Prop
  | element {e : Element} (he : e ∈ u.header) (hlong : 255 < e.value.length) :
      Unwritable u charset limit (.field .elementTooLong)
  | header (hlong : 256 < u.header.size) : Unwritable u charset limit (.field .headerTooLong)
  | limit (hlong : limit < u.header.size) :
      Unwritable u charset limit (.field (.headerOverLimit u.header.size limit))
  | character {part rest : List Char} {c : Char} (htext : u.text = part ++ c :: rest)
      (hpart : LongestFit charset (roomFor charset limit u.header.size) u.text part)
      (hc : charSize? charset c = none) : Unwritable u charset limit (.unmappable c)

variable {u : UserData} {s : Octets}

/-- There is no other reason for user data not to be written. -/
theorem unwritable_of_encode (h : u.encode charset limit = .error fault) :
    Unwritable u charset limit fault := by
  rcases bind_eq_fault.1 h with h | ⟨header, hheader, h⟩
  · rcases Header.eq_of_encode_eq_error h with ⟨rfl, e, he, hlong⟩ | ⟨rfl, hlong⟩
    · exact .element he hlong
    · exact .header hlong
  · have hsize := Header.length_encode hheader
    split at h
    · rename_i hlong
      cases h
      rw [hsize] at hlong ⊢
      exact .limit hlong
    · rcases bind_eq_fault.1 h with h | ⟨r, -, h⟩
      · obtain ⟨c, rfl, hc, rest, hrest⟩ := stopsAt_of_encodeText h
        rw [hsize] at hrest
        exact .character hrest (longestFit_cut _ _ _) hc
      · cases h

/-- User data that is written survives up to truncation, and what is not written leaves the buffer
as it was. -/
theorem survives_truncation [Word] (u : UserData) (charset : CharacterSet) (limit : Nat)
    (hlimit : limit ≤ 255) (hunits : charset = .gsm7 →
      limit * 8 / 7 ≤ 255 ∧ headerUnits u.header.size ≤ limit * 8 / 7) :
    (∀ fault, u.encode charset limit = .error fault →
      Unwritable u charset limit fault ∧ ∀ buffer,
        (Printer.userData u charset limit).run.run buffer = .ok (.error fault, buffer)) ∧
    ∀ s, u.encode charset limit = .ok s →
      s.length ≤ limit + 1 ∧
      (∀ buffer, (Printer.userData u charset limit).run.run buffer = .ok (.ok (), buffer ++ s)) ∧
      ∃ part, LongestFit charset (roomFor charset limit u.header.size) u.text part ∧
        ∀ rest, UserData.decoder charset u.hasHeader limit (s ++ rest) =
          .ok (⟨u.header.reread, part⟩, rest) := by
  have ha : u.header.size ≤ limit → Admits charset limit u.header.size := fun hheader =>
    ⟨hheader, Nat.lt_succ_of_le hlimit, fun h => ⟨Nat.lt_succ_of_le (hunits h).1, (hunits h).2⟩⟩
  have hwhole := Printer.writesWhole_userData ha
  refine ⟨fun fault h => ⟨unwritable_of_encode h, fun buffer => ?_⟩, fun s h =>
    ⟨length_encode h ha, fun buffer => ?_, _, longestFit_cut _ _ _, reads_userData h ha⟩⟩
  · rw [hwhole buffer, h]
  · rw [hwhole buffer, h]

/-- The header covers seven units, and of the text four more fit into ten octets. -/
def overlong : UserData := ⟨[.concatenated 1 2 1], ['a', 'b', '€', 'd', '€']⟩

theorem survives_truncation_overlong :
    ∃ s : Octets, overlong.encode .gsm7 10 = .ok s ∧ s.length ≤ 11 ∧
      (∀ buffer, (@Printer.userData wide overlong .gsm7 10).run.run buffer =
        .ok (.ok (), buffer ++ s)) ∧
      ∀ rest, UserData.decoder .gsm7 true 10 (s ++ rest) =
        .ok (⟨[.concatenated 1 2 1], ['a', 'b', '€']⟩, rest) := by
  have hencode : overlong.encode .gsm7 10 = .ok [11, 5, 0, 3, 1, 2, 1, 194, 226, 77, 25] := by
    decide +kernel
  obtain ⟨hlength, hwritten, part, hpart, hread⟩ :=
    (@survives_truncation wide overlong .gsm7 10 (by decide) (by decide)).2 _ hencode
  have hcut : cut .gsm7 4 overlong.text = ['a', 'b', '€'] := by decide +kernel
  have hlongest := eq_cut hpart.begins hpart.fitting hpart.longest
  cases hcut.symm.trans hlongest
  exact ⟨_, hencode, hlength, hwritten, hread⟩

end UserData

end ShortMessage
