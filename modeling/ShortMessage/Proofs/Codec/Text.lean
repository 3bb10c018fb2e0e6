import Mathlib.Data.Nat.Find
import ShortMessage.Proofs.Alphabet.Packing
import ShortMessage.Proofs.Alphabet.Text
import ShortMessage.Proofs.Codec.CodeUnits

/-!
# The text of user data

A text takes room in units of its character set, and what does not fit is cut off at a character.

* `textSize?` — the room that a text takes, and `cut`, the longest part of it that fits
  (`fits_cut`, `length_le_length_cut`);
* `encodeText_cut` — only the longest part that fits is written;
* `encodeText_of_fits` — all of a text that fits is written and read back, and the length octet
  stands for the octets that follow.
-/

namespace ShortMessage.UserData

variable {charset : CharacterSet} {room limit header n : Nat} {c : Char} {text cs p : List Char}

/-! ## How much fits -/

/-- The room that a character takes, if the set has it: units of the default alphabet, octets
otherwise. -/
def charSize? : CharacterSet → Char → Option Nat
  | .gsm7, c => Alphabet.charUnits? c
  | .eightBit, c => if c.toNat < 256 then some 1 else none
  | .ucs2, c => some (2 * (CodeUnits.ofChar c).length)

/-- The room that a text takes, if the set has all of its characters. -/
def textSize? (charset : CharacterSet) : List Char → Option Nat
  | [] => some 0
  | c :: cs => do return (← charSize? charset c) + (← textSize? charset cs)

/-- Does all of a text fit? -/
def fits (charset : CharacterSet) (room : Nat) (text : List Char) : Bool :=
  (textSize? charset text).any (· ≤ room)

/-- The longest part of a text that fits, cut at a character. -/
def cut (charset : CharacterSet) (room : Nat) (text : List Char) : List Char :=
  text.take (Nat.findGreatest (fun n => fits charset room (text.take n)) text.length)

theorem textSize?_cons : textSize? charset (c :: cs) = some n ↔
    ∃ k l, charSize? charset c = some k ∧ textSize? charset cs = some l ∧ n = k + l := by
  rw [textSize?]
  cases charSize? charset c with
  | none => simp
  | some k =>
    cases textSize? charset cs with
    | none => simp
    | some l => simp [eq_comm]

theorem fits_iff : fits charset room text = true ↔
    ∃ n, textSize? charset text = some n ∧ n ≤ room := by
  simp [fits, Option.any_eq_true]

theorem fits_nil : fits charset room [] = true := fits_iff.2 ⟨0, rfl, Nat.zero_le _⟩

theorem fits_cons : fits charset room (c :: cs) = true ↔
    ∃ k, charSize? charset c = some k ∧ k ≤ room ∧ fits charset (room - k) cs = true := by
  simp only [fits_iff, textSize?_cons]
  constructor
  · rintro ⟨_, ⟨k, l, hk, hl, rfl⟩, hle⟩
    exact ⟨k, hk, by omega, l, hl, by omega⟩
  · rintro ⟨k, hk, hle, l, hl, hle'⟩
    exact ⟨k + l, ⟨k, l, hk, hl, rfl⟩, by omega⟩

/-- What is left of a text fits. -/
theorem fits_cut (charset : CharacterSet) (room : Nat) (text : List Char) :
    fits charset room (cut charset room text) = true :=
  Nat.findGreatest_spec (P := fun n => fits charset room (text.take n)) (Nat.zero_le _) fits_nil

theorem cut_isPrefix (charset : CharacterSet) (room : Nat) (text : List Char) :
    cut charset room text <+: text := List.take_prefix _ _

/-- No more of a text fits than what is left. -/
theorem length_le_length_cut (hp : p <+: text) (h : fits charset room p = true) :
    p.length ≤ (cut charset room text).length := by
  rw [List.prefix_iff_eq_take.1 hp] at h
  rw [cut, List.length_take_of_le (Nat.findGreatest_le _)]
  exact Nat.le_findGreatest hp.length_le h

theorem eq_cut (hp : p <+: text) (h : fits charset room p = true)
    (hlongest : ∀ q, q <+: text → fits charset room q = true → q.length ≤ p.length) :
    cut charset room text = p := by
  have hcut := cut_isPrefix charset room text
  have hlength := Nat.le_antisymm (hlongest _ hcut (fits_cut _ _ _)) (length_le_length_cut hp h)
  rw [List.prefix_iff_eq_take.1 hp, List.prefix_iff_eq_take.1 hcut, hlength]

/-- Nothing is cut off a text that fits. -/
theorem cut_of_fits (h : fits charset room text = true) : cut charset room text = text :=
  eq_cut (List.prefix_refl text) h fun _ hq _ => hq.length_le

@[simp] theorem cut_nil : cut charset room [] = [] := rfl

/-- A character that fits is kept. -/
theorem cut_cons (hc : charSize? charset c = some n) (hn : n ≤ room) :
    cut charset room (c :: cs) = c :: cut charset (room - n) cs := by
  refine eq_cut (List.cons_prefix_cons.2 ⟨rfl, cut_isPrefix _ _ _⟩)
    (fits_cons.2 ⟨n, hc, hn, fits_cut _ _ _⟩) fun q hq hfits => ?_
  cases q with
  | nil => exact Nat.zero_le _
  | cons c' q =>
    obtain ⟨rfl, hrest⟩ := List.cons_prefix_cons.1 hq
    obtain ⟨k, hk, -, hfits⟩ := fits_cons.1 hfits
    cases hc.symm.trans hk
    exact Nat.succ_le_succ (length_le_length_cut hrest hfits)

/-- The first character that does not fit is cut off with all that follow. -/
theorem cut_cons_of_lt (hc : ∀ k, charSize? charset c = some k → room < k) :
    cut charset room (c :: cs) = [] := by
  refine eq_cut (List.nil_prefix) fits_nil fun q hq hfits => ?_
  cases q with
  | nil => exact Nat.le_refl _
  | cons c' q =>
    obtain ⟨rfl, -⟩ := List.cons_prefix_cons.1 hq
    obtain ⟨k, hk, hle, -⟩ := fits_cons.1 hfits
    exact absurd hle (Nat.not_le.2 (hc k hk))

/-! ## Units of the default alphabet -/

theorem charSize?_gsm7 : charSize? .gsm7 c = some n ↔
    ∃ code, Alphabet.codeOf? c = some code ∧ code.units.length = n := by
  simp [charSize?, Alphabet.charUnits?]

theorem unitsThatFit_cut {units : List UInt8} (h : unitsThatFit room text = .ok units) :
    unitsThatFit room (cut .gsm7 room text) = .ok units := by
  induction text generalizing room units with
  | nil => exact h
  | cons c cs ih =>
    unfold unitsThatFit at h
    cases hc : Alphabet.codeOf? c with
    | none => rw [hc] at h; cases h
    | some code =>
      rw [hc] at h
      dsimp only at h
      split at h
      · rename_i hlt
        cases h
        rw [cut_cons_of_lt fun k hk => ?_]
        · rfl
        · obtain ⟨code', hcode', rfl⟩ := charSize?_gsm7.1 hk
          cases hc.symm.trans hcode'
          exact hlt
      · rename_i hle
        obtain ⟨rest, hrest, h⟩ := bind_eq_ok.1 h
        cases h
        rw [cut_cons (charSize?_gsm7.2 ⟨code, hc, rfl⟩) (Nat.not_lt.1 hle), unitsThatFit, hc]
        dsimp only
        rw [if_neg hle, ih hrest]
        rfl

/-- A text that fits is written as its units. -/
theorem unitsThatFit_of_le (h : textSize? .gsm7 text = some n)
    (hn : n ≤ room) : ∃ units, unitsThatFit room text = .ok units ∧
      Alphabet.unitsOf text = .ok units ∧ units.length = n := by
  induction text generalizing room n with
  | nil => cases h; exact ⟨[], rfl, rfl, rfl⟩
  | cons c cs ih =>
    obtain ⟨_, l, hk, hl, rfl⟩ := textSize?_cons.1 h
    obtain ⟨code, hcode, rfl⟩ := charSize?_gsm7.1 hk
    obtain ⟨units, hfit, hunits, rfl⟩ := ih hl (show l ≤ room - code.units.length by omega)
    refine ⟨code.units ++ units, ?_,
      Alphabet.unitsOf_cons_eq_ok.2 ⟨code, units, hcode, hunits, rfl⟩,
      List.length_append⟩
    rw [unitsThatFit, hcode]
    dsimp only
    rw [if_neg (by omega), hfit]
    rfl

theorem length_unitsThatFit {units : List UInt8} (h : unitsThatFit room text = .ok units) :
    units.length ≤ room := by
  obtain ⟨n, hn, hle⟩ := fits_iff.1 (fits_cut .gsm7 room text)
  obtain ⟨units', hfit, -, rfl⟩ := unitsThatFit_of_le hn hle
  cases (unitsThatFit_cut h).symm.trans hfit
  exact hle

/-! ## Octets -/

theorem octetsThatFit_cut {s : Octets} (h : octetsThatFit room text = .ok s) :
    octetsThatFit room (cut .eightBit room text) = .ok s := by
  induction text generalizing room s with
  | nil => exact h
  | cons c cs ih =>
    unfold octetsThatFit at h
    cases room with
    | zero =>
      cases h
      rw [cut_cons_of_lt fun k hk => ?_]
      · rfl
      · simp only [charSize?, Option.ite_none_right_eq_some, Option.some.injEq] at hk
        omega
    | succ room =>
      dsimp only at h
      split at h
      · rename_i hc
        obtain ⟨rest, hrest, h⟩ := bind_eq_ok.1 h
        cases h
        rw [cut_cons (n := 1) (by simp [charSize?, hc]) (Nat.succ_pos _), octetsThatFit,
          if_pos hc, Nat.succ_sub_one, ih hrest]
        rfl
      · cases h

/-- A text that fits is written with one octet for each character. -/
theorem octetsThatFit_of_le (h : textSize? .eightBit text = some n) (hn : n ≤ room) :
    ∃ s, octetsThatFit room text = .ok s ∧ s.length = n ∧
      s.map (fun b => Char.ofNat b.toNat) = text := by
  induction text generalizing room n with
  | nil => cases h; exact ⟨[], by rw [octetsThatFit], rfl, rfl⟩
  | cons c cs ih =>
    obtain ⟨k, l, hk, hl, rfl⟩ := textSize?_cons.1 h
    simp only [charSize?, Option.ite_none_right_eq_some, Option.some.injEq] at hk
    obtain ⟨hc, rfl⟩ := hk
    obtain ⟨room, rfl⟩ : ∃ r, room = r + 1 := ⟨room - 1, by omega⟩
    obtain ⟨s, hfit, rfl, hread⟩ := ih hl (show l ≤ room by omega)
    refine ⟨UInt8.ofNat c.toNat :: s, ?_, Nat.add_comm _ _, ?_⟩
    · rw [octetsThatFit, if_pos hc, hfit]
      rfl
    · rw [List.map_cons, hread, UInt8.toNat_ofNat', Nat.mod_eq_of_lt hc, Char.ofNat_toNat]

theorem length_octetsThatFit {s : Octets} (h : octetsThatFit room text = .ok s) :
    s.length ≤ room := by
  obtain ⟨n, hn, hle⟩ := fits_iff.1 (fits_cut .eightBit room text)
  obtain ⟨s', hfit, rfl, -⟩ := octetsThatFit_of_le hn hle
  cases (octetsThatFit_cut h).symm.trans hfit
  exact hle

/-! ## Code units -/

theorem length_codeUnits (c : Char) : ((CodeUnits.ofChar c).flatMap codeUnitOctets).length =
    2 * (CodeUnits.ofChar c).length := length_flatMap_codeUnitOctets _

theorem codeUnitsThatFit_cut (room : Nat) (text : List Char) :
    codeUnitsThatFit room (cut .ucs2 room text) = codeUnitsThatFit room text := by
  induction text generalizing room with
  | nil => rfl
  | cons c cs ih =>
    rw [codeUnitsThatFit]
    by_cases hlt : room < ((CodeUnits.ofChar c).flatMap codeUnitOctets).length
    · rw [if_pos hlt, cut_cons_of_lt fun k hk => ?_]
      · rfl
      · cases hk
        rwa [← length_codeUnits]
    · rw [if_neg hlt, cut_cons rfl (by rw [← length_codeUnits]; exact Nat.not_lt.1 hlt),
        codeUnitsThatFit, if_neg hlt, ← length_codeUnits, ih]

/-- A text that fits is written as the octets of its code units. -/
theorem codeUnitsThatFit_of_le (h : textSize? .ucs2 text = some n) (hn : n ≤ room) :
    codeUnitsThatFit room text = (text.flatMap CodeUnits.ofChar).flatMap codeUnitOctets ∧
      2 * (text.flatMap CodeUnits.ofChar).length = n := by
  induction text generalizing room n with
  | nil => cases h; exact ⟨rfl, rfl⟩
  | cons c cs ih =>
    obtain ⟨_, l, hk, hl, rfl⟩ := textSize?_cons.1 h
    cases hk
    obtain ⟨hfit, rfl⟩ := ih hl (show l ≤ room - 2 * (CodeUnits.ofChar c).length by omega)
    rw [codeUnitsThatFit, length_codeUnits, if_neg (by omega), hfit, List.flatMap_cons,
      List.flatMap_append, List.length_append]
    exact ⟨rfl, Nat.mul_add ..⟩

theorem length_codeUnitsThatFit (room : Nat) (text : List Char) :
    (codeUnitsThatFit room text).length ≤ room := by
  obtain ⟨n, hn, hle⟩ := fits_iff.1 (fits_cut .ucs2 room text)
  obtain ⟨hfit, rfl⟩ := codeUnitsThatFit_of_le hn hle
  rw [← codeUnitsThatFit_cut, hfit, length_flatMap_codeUnitOctets]
  exact hle

/-! ## Writing and reading a text -/

/-- The room for a text behind a header of so many octets. -/
def roomFor : CharacterSet → Nat → Nat → Nat
  | .gsm7, limit, header => limit * 8 / 7 - headerUnits header
  | .eightBit, limit, header | .ucs2, limit, header => limit - header

/-- What the length octet says of a header of so many octets and a text of this size. -/
def lengthFor : CharacterSet → Nat → Nat → Nat
  | .gsm7, header, size => headerUnits header + size
  | .eightBit, header, size | .ucs2, header, size => header + size

/-- The limit leaves room for a header of so many octets, and the length octet can count up to
it. -/
structure Admits (charset : CharacterSet) (limit header : Nat) : Prop where
  header_le : header ≤ limit
  limit_lt : limit < 256
  units : charset = .gsm7 → limit * 8 / 7 < 256 ∧ headerUnits header ≤ limit * 8 / 7

/-- Only the longest part of a text that fits is written. -/
theorem encodeText_cut {r : UInt8 × Octets} (h : encodeText text charset limit header = .ok r) :
    encodeText (cut charset (roomFor charset limit header) text) charset limit header = .ok r := by
  cases charset with
  | gsm7 =>
    obtain ⟨units, hunits, h⟩ := bind_eq_ok.1 h
    exact bind_eq_ok.2 ⟨units, unitsThatFit_cut hunits, h⟩
  | eightBit =>
    obtain ⟨octets, hoctets, h⟩ := bind_eq_ok.1 h
    exact bind_eq_ok.2 ⟨octets, octetsThatFit_cut hoctets, h⟩
  | ucs2 =>
    rw [encodeText, roomFor, codeUnitsThatFit_cut]
    exact h

/-- Octets that stand for a text of this size behind a header of so many octets: the length octet
says how many they are, and they are read as the text. -/
structure Stands (charset : CharacterSet) (limit header size : Nat) (text : List Char)
    (body : Octets) : Prop where
  length_lt : lengthFor charset header size < 256
  octets : octetsOfLength charset (lengthFor charset header size) = header + body.length
  le_limit : header + body.length ≤ limit
  read : readText charset (lengthFor charset header size) header body = .ok text

/-- All of a text that fits is written. -/
theorem encodeText_of_fits (h : textSize? charset text = some n)
    (hn : n ≤ roomFor charset limit header) (ha : Admits charset limit header) :
    ∃ body, encodeText text charset limit header =
        .ok (UInt8.ofNat (lengthFor charset header n), body) ∧
      Stands charset limit header n text body := by
  obtain ⟨hheader, hlimit, hunits⟩ := ha
  cases charset with
  | gsm7 =>
    rw [roomFor] at hn
    obtain ⟨units, hfit, hunitsOf, rfl⟩ := unitsThatFit_of_le h hn
    obtain ⟨hlt, hle⟩ := hunits rfl
    have hfill : fillBits header < 7 := by unfold fillBits headerUnits; omega
    have hoffset : (UInt8.ofNat (fillBits header)).toNat % 8 = fillBits header := by
      rw [UInt8.toNat_ofNat']
      omega
    have hbody : (Alphabet.pack units (UInt8.ofNat (fillBits header))).length =
        (fillBits header + 7 * units.length + 7) / 8 := by
      rw [Alphabet.length_pack, hoffset, Alphabet.packedLength]
    refine ⟨Alphabet.pack units (UInt8.ofNat (fillBits header)), ?_, ?_, ?_, ?_, ?_⟩
    · rw [encodeText, hfit]
      rfl
    · rw [lengthFor]
      omega
    · rw [hbody, octetsOfLength, lengthFor]
      unfold fillBits headerUnits
      omega
    · rw [hbody]
      unfold fillBits headerUnits at *
      omega
    · rw [lengthFor, readText, if_neg (by omega), Nat.add_sub_cancel_left, Alphabet.unpack_pack]
      exact congrArg Except.ok ((Alphabet.textOf_masked _).trans (Alphabet.textOf_unitsOf hunitsOf))
  | eightBit =>
    rw [roomFor] at hn
    obtain ⟨s, hfit, rfl, hread⟩ := octetsThatFit_of_le h hn
    refine ⟨s, ?_, ?_, rfl, by omega, ?_⟩
    · rw [encodeText, hfit]
      rfl
    · rw [lengthFor]
      omega
    · rw [readText, hread]
  | ucs2 =>
    rw [roomFor] at hn
    obtain ⟨hfit, rfl⟩ := codeUnitsThatFit_of_le h hn
    have hlength := length_flatMap_codeUnitOctets (text.flatMap CodeUnits.ofChar)
    have hsmall : ∀ u ∈ text.flatMap CodeUnits.ofChar, u < 0x10000 := by
      intro u hu
      obtain ⟨c, -, hu⟩ := List.mem_flatMap.1 hu
      exact CodeUnits.lt_of_mem_ofChar hu
    refine ⟨(text.flatMap CodeUnits.ofChar).flatMap codeUnitOctets, ?_, ?_, ?_, ?_, ?_⟩
    · rw [encodeText, hfit, hlength]
      rfl
    · rw [lengthFor]
      omega
    · rw [hlength]
      rfl
    · omega
    · rw [readText, if_neg (by omega), pairs_flatMap_codeUnitOctets hsmall,
        CodeUnits.toChars_flatMap_ofChar]

/-! ## What is read of any octets -/

theorem textSize?_eightBit_of_octets (s : Octets) :
    textSize? .eightBit (s.map fun b => Char.ofNat b.toNat) = some s.length := by
  induction s with
  | nil => rfl
  | cons b s ih =>
    have hb : (Char.ofNat b.toNat).toNat < 256 :=
      Nat.lt_of_le_of_lt (CodeUnits.toNat_ofNat_le _) b.toNat_lt
    refine textSize?_cons.2 ⟨1, s.length, ?_, ih, Nat.add_comm _ _⟩
    rw [charSize?, if_pos hb]

theorem textSize?_ucs2 (text : List Char) :
    textSize? .ucs2 text = some (2 * (text.flatMap CodeUnits.ofChar).length) := by
  induction text with
  | nil => rfl
  | cons c cs ih =>
    refine textSize?_cons.2 ⟨_, _, rfl, ih, ?_⟩
    rw [List.flatMap_cons, List.length_append, Nat.mul_add]

theorem textSize?_gsm7 {units : List UInt8} (h : Alphabet.unitsOf text = .ok units) :
    textSize? .gsm7 text = some units.length := by
  induction text generalizing units with
  | nil => cases h; rfl
  | cons c cs ih =>
    obtain ⟨code, us, hcode, hus, rfl⟩ := Alphabet.unitsOf_cons_eq_ok.1 h
    exact textSize?_cons.2
      ⟨_, _, charSize?_gsm7.2 ⟨code, hcode, rfl⟩, ih hus, List.length_append⟩

/-- Whatever is read as a text is a text of the character set, and takes no more room than what it
was read from. -/
theorem textSize?_of_readText {length : Nat} {body : Octets}
    (h : readText charset length header body = .ok text)
    (hlength : charset ≠ .gsm7 → header + body.length = length) :
    ∃ n, textSize? charset text = some n ∧ lengthFor charset header n ≤ length := by
  cases charset with
  | gsm7 =>
    rw [readText] at h
    split at h
    · cases h
    · obtain ⟨units, hunits, h⟩ := bind_eq_ok.1 h
      cases h
      obtain ⟨us, hus, hle⟩ := Alphabet.exists_unitsOf_textOf units
      have hcount := Alphabet.length_unpack hunits
      refine ⟨us.length, textSize?_gsm7 hus, ?_⟩
      rw [lengthFor]
      omega
  | eightBit =>
    cases h
    exact ⟨_, textSize?_eightBit_of_octets body, (hlength (by decide)).le⟩
  | ucs2 =>
    rw [readText] at h
    split at h
    · cases h
    · cases h
      have hunits := CodeUnits.length_flatMap_toChars fun u (hu : u ∈ pairs body) =>
        lt_of_mem_pairs hu
      have hpairs := length_pairs body
      have htotal := hlength (by decide)
      refine ⟨_, textSize?_ucs2 _, ?_⟩
      rw [lengthFor]
      omega

end ShortMessage.UserData
