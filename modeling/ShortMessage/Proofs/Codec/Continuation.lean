import ShortMessage.Proofs.Codec.UserData

/-!
# Text behind a full one

A text that takes the room behind a header completely, `Fills`, is written in the same octets
whatever follows it, as what follows is cut off.  The one exception is in the default alphabet,
where the first character that is cut off is still looked up: if the alphabet does not have it,
`Trips`, the whole text is refused (`encode_append_of_fills`, `encode_append_refused`).
-/

namespace ShortMessage.UserData

variable {charset : CharacterSet} {room limit header n : Nat} {c : Char} {p rest : List Char}

/-- The least room that a character takes: one unit, one octet, or one code unit. -/
def leastSize : CharacterSet → Nat
  | .gsm7 | .eightBit => 1
  | .ucs2 => 2

/-- The text takes the room completely: it fits, and nothing more does. -/
def Fills (charset : CharacterSet) (room : Nat) (p : List Char) : Prop :=
  ∃ n, textSize? charset p = some n ∧ n ≤ room ∧ room < n + leastSize charset

/-- What follows begins with a character that is looked up in vain. -/
def Trips (charset : CharacterSet) (rest : List Char) (c : Char) : Prop :=
  charset = .gsm7 ∧ rest.head? = some c ∧ Alphabet.hasChar c = false

/-! ## Writing goes on behind a text that fits -/

theorem unitsThatFit_append (h : textSize? .gsm7 p = some n) (hn : n ≤ room) :
    ∃ units, unitsThatFit room p = .ok units ∧ ∀ rest,
      unitsThatFit room (p ++ rest) = (unitsThatFit (room - n) rest).map (units ++ ·) := by
  induction p generalizing room n with
  | nil =>
    cases h
    refine ⟨[], rfl, fun rest => ?_⟩
    rw [List.nil_append, Nat.sub_zero]
    cases unitsThatFit room rest <;> rfl
  | cons c cs ih =>
    obtain ⟨_, l, hk, hl, rfl⟩ := textSize?_cons.1 h
    obtain ⟨code, hcode, rfl⟩ := charSize?_gsm7.1 hk
    obtain ⟨units, hunits, happend⟩ := ih hl (show l ≤ room - code.units.length by omega)
    have hfits : ¬room < code.units.length := by omega
    refine ⟨code.units ++ units, ?_, fun rest => ?_⟩
    · rw [unitsThatFit, hcode]
      dsimp only
      rw [if_neg hfits, hunits]
      rfl
    · rw [List.cons_append, unitsThatFit, hcode]
      dsimp only
      rw [if_neg hfits, happend, Nat.sub_sub]
      cases unitsThatFit (room - (code.units.length + l)) rest with
      | error fault => rfl
      | ok us => exact congrArg Except.ok (List.append_assoc ..).symm

theorem octetsThatFit_append (h : textSize? .eightBit p = some n) (hn : n ≤ room) :
    ∃ octets, octetsThatFit room p = .ok octets ∧ ∀ rest,
      octetsThatFit room (p ++ rest) = (octetsThatFit (room - n) rest).map (octets ++ ·) := by
  induction p generalizing room n with
  | nil =>
    cases h
    refine ⟨[], by rw [octetsThatFit], fun rest => ?_⟩
    rw [List.nil_append, Nat.sub_zero]
    cases octetsThatFit room rest <;> rfl
  | cons c cs ih =>
    obtain ⟨k, l, hk, hl, rfl⟩ := textSize?_cons.1 h
    simp only [charSize?, Option.ite_none_right_eq_some, Option.some.injEq] at hk
    obtain ⟨hc, rfl⟩ := hk
    obtain ⟨room, rfl⟩ : ∃ r, room = r + 1 := ⟨room - 1, by omega⟩
    obtain ⟨octets, hoctets, happend⟩ := ih hl (show l ≤ room by omega)
    refine ⟨UInt8.ofNat c.toNat :: octets, ?_, fun rest => ?_⟩
    · rw [octetsThatFit, if_pos hc, hoctets]
      rfl
    · rw [List.cons_append, octetsThatFit, if_pos hc, happend,
        show room + 1 - (1 + l) = room - l by omega]
      cases octetsThatFit (room - l) rest <;> rfl

theorem codeUnitsThatFit_append (h : textSize? .ucs2 p = some n) (hn : n ≤ room)
    (rest : List Char) : codeUnitsThatFit room (p ++ rest) =
      codeUnitsThatFit room p ++ codeUnitsThatFit (room - n) rest := by
  induction p generalizing room n with
  | nil => cases h; rfl
  | cons c cs ih =>
    obtain ⟨_, l, hk, hl, rfl⟩ := textSize?_cons.1 h
    cases hk
    rw [List.cons_append, codeUnitsThatFit, codeUnitsThatFit, length_codeUnits,
      if_neg (by omega), if_neg (by omega),
      ih hl (show l ≤ room - 2 * (CodeUnits.ofChar c).length by omega), Nat.sub_sub,
      List.append_assoc]

/-! ## Where no room is left -/

theorem unitsThatFit_zero (h : ∀ c, ¬Trips .gsm7 rest c) : unitsThatFit 0 rest = .ok [] := by
  cases rest with
  | nil => rfl
  | cons c cs =>
    rw [unitsThatFit]
    cases hc : Alphabet.codeOf? c with
    | none => exact absurd ⟨rfl, rfl, by rw [Alphabet.hasChar, hc]; rfl⟩ (h c)
    | some code =>
      have hlength : 0 < code.units.length := by cases code <;> exact Nat.succ_pos _
      exact if_pos hlength

theorem unitsThatFit_zero_of_trips (h : Trips .gsm7 rest c) :
    unitsThatFit 0 rest = .error (.unmappable c) := by
  obtain ⟨-, hhead, hmissing⟩ := h
  obtain ⟨cs, rfl⟩ := List.head?_eq_some_iff.1 hhead
  have hc : Alphabet.codeOf? c = none := by simpa [Alphabet.hasChar] using hmissing
  rw [unitsThatFit, hc]

theorem octetsThatFit_zero (rest : List Char) : octetsThatFit 0 rest = .ok [] := by
  cases rest <;> rw [octetsThatFit]

theorem codeUnitsThatFit_of_lt (h : room < 2) (rest : List Char) :
    codeUnitsThatFit room rest = [] := by
  cases rest with
  | nil => rfl
  | cons c cs =>
    have hlength : 0 < (CodeUnits.ofChar c).length := by
      unfold CodeUnits.ofChar
      dsimp only
      split <;> exact Nat.succ_pos _
    rw [codeUnitsThatFit, length_codeUnits, if_pos (by omega)]

/-! ## Writing a text and what follows it -/

/-- Behind a text that takes all the room nothing is written; what follows it can only make the
whole text be refused. -/
theorem encodeText_append (hp : Fills charset (roomFor charset limit header) p) :
    ∃ r, encodeText p charset limit header = .ok r ∧ ∀ rest,
      ((∀ c, ¬Trips charset rest c) → encodeText (p ++ rest) charset limit header = .ok r) ∧
      ∀ c, Trips charset rest c →
        encodeText (p ++ rest) charset limit header = .error (.unmappable c) := by
  obtain ⟨n, hn, hle, hlt⟩ := hp
  cases charset with
  | gsm7 =>
    have hnone : roomFor .gsm7 limit header - n = 0 := by
      rw [leastSize] at hlt
      omega
    obtain ⟨units, hunits, happend⟩ := unitsThatFit_append hn hle
    refine ⟨_, bind_eq_ok.2 ⟨units, hunits, rfl⟩, fun rest => ⟨fun hrest => ?_, fun c hc => ?_⟩⟩
    · refine bind_eq_ok.2 ⟨units, (happend rest).trans ?_, rfl⟩
      rw [hnone, unitsThatFit_zero hrest]
      exact congrArg Except.ok (List.append_nil units)
    · refine bind_eq_fault.2 (.inl ((happend rest).trans ?_))
      rw [hnone, unitsThatFit_zero_of_trips hc]
      rfl
  | eightBit =>
    have hnone : roomFor .eightBit limit header - n = 0 := by
      rw [leastSize] at hlt
      omega
    obtain ⟨octets, hoctets, happend⟩ := octetsThatFit_append hn hle
    refine ⟨_, bind_eq_ok.2 ⟨octets, hoctets, rfl⟩, fun rest => ⟨fun _ => ?_, nofun⟩⟩
    refine bind_eq_ok.2 ⟨octets, (happend rest).trans ?_, rfl⟩
    rw [hnone, octetsThatFit_zero]
    exact congrArg Except.ok (List.append_nil octets)
  | ucs2 =>
    have hfew : roomFor .ucs2 limit header - n < 2 := by
      rw [leastSize] at hlt
      omega
    refine ⟨_, rfl, fun rest => ⟨fun _ => ?_, nofun⟩⟩
    have happend := codeUnitsThatFit_append hn hle rest
    rw [codeUnitsThatFit_of_lt hfew, List.append_nil] at happend
    rw [roomFor] at happend
    rw [encodeText, happend]

/-- A header and a limit for which user data is written: the header has octets, the limit leaves
room for them, and in the default alphabet for the units that they cover. -/
structure Accepts (charset : CharacterSet) (limit : Nat) (header : Header) (raw : Octets) :
    Prop where
  encode_eq : header.encode = .ok raw
  length_le : raw.length ≤ limit
  units_le : charset = .gsm7 → headerUnits raw.length ≤ limit * 8 / 7

variable {es : Header} {raw : Octets}

theorem encode_of_encodeText (ha : Accepts charset limit es raw) (text : List Char) :
    encode ⟨es, text⟩ charset limit = (encodeText text charset limit raw.length).map
      fun r => r.1 :: raw ++ r.2 := by
  rw [encode, ha.encode_eq]
  show (if limit < raw.length then _ else _) = _
  rw [if_neg (Nat.not_lt.2 ha.length_le)]
  cases encodeText text charset limit raw.length <;> rfl

/-- A text that takes all the room behind its header is written, and in the same octets whatever
follows it, unless that begins with a character that the default alphabet is asked for and does not
have: then nothing is written. -/
theorem encode_append_of_fills (ha : Accepts charset limit es raw)
    (hp : Fills charset (roomFor charset limit raw.length) p) :
    ∃ s, encode ⟨es, p⟩ charset limit = .ok s ∧ ∀ rest,
      (encode ⟨es, p ++ rest⟩ charset limit = .ok s ↔ ∀ c, ¬Trips charset rest c) ∧
      ∀ c, Trips charset rest c →
        encode ⟨es, p ++ rest⟩ charset limit = .error (.unmappable c) := by
  obtain ⟨r, hr, happend⟩ := encodeText_append hp
  refine ⟨r.1 :: raw ++ r.2, by rw [encode_of_encodeText ha, hr]; rfl, fun rest => ?_⟩
  have hrefused : ∀ c, Trips charset rest c →
      encode ⟨es, p ++ rest⟩ charset limit = .error (.unmappable c) := by
    intro c hc
    rw [encode_of_encodeText ha, (happend rest).2 c hc]
    rfl
  refine ⟨⟨fun h c hc => ?_, fun h => ?_⟩, hrefused⟩
  · rw [hrefused c hc] at h
    cases h
  · rw [encode_of_encodeText ha, (happend rest).1 h]
    rfl

/-- One character behind the header of a part, which takes all that seven octets leave: what begins
with another character of the alphabet is cut off, and what begins with a missing one is refused. -/
theorem encode_append_of_fills_headed :
    Accepts .gsm7 7 [.concatenated 1 2 1] [5, 0, 3, 1, 2, 1] ∧
    Fills .gsm7 (roomFor .gsm7 7 6) ['a'] ∧
    ∃ s, encode ⟨[.concatenated 1 2 1], ['a']⟩ .gsm7 7 = .ok s ∧
      encode ⟨[.concatenated 1 2 1], ['a', 'b', 'あ']⟩ .gsm7 7 = .ok s ∧
      encode ⟨[.concatenated 1 2 1], ['a', 'あ']⟩ .gsm7 7 = .error (.unmappable 'あ') := by
  have ha : Accepts .gsm7 7 [.concatenated 1 2 1] [5, 0, 3, 1, 2, 1] :=
    ⟨rfl, by decide, fun _ => by decide⟩
  have hp : Fills .gsm7 (roomFor .gsm7 7 6) ['a'] := ⟨1, rfl, by decide, by decide⟩
  obtain ⟨s, hs, happend⟩ := encode_append_of_fills ha hp
  have hlook : ∀ c, ¬Trips .gsm7 ['b', 'あ'] c := by
    rintro _ ⟨-, ⟨⟩, hmissing⟩
    exact absurd hmissing (by decide)
  exact ⟨ha, hp, s, hs, (happend ['b', 'あ']).1.2 hlook,
    (happend ['あ']).2 'あ' ⟨rfl, rfl, by decide⟩⟩

/-- What is cut off can make a text be refused that would be written without it. -/
theorem encode_append_refused :
    ¬∀ (charset : CharacterSet) (limit : Nat) (es : Header) (raw : Octets) (p rest : List Char),
      Accepts charset limit es raw → Fills charset (roomFor charset limit raw.length) p →
      ∃ s, encode ⟨es, p⟩ charset limit = .ok s ∧ encode ⟨es, p ++ rest⟩ charset limit = .ok s := by
  intro h
  obtain ⟨s, -, hs⟩ := h .gsm7 1 [] [] ['a'] ['あ'] ⟨rfl, by decide, fun _ => by decide⟩
    ⟨1, rfl, by decide, by decide⟩
  have hrefused : encode ⟨[], ['a', 'あ']⟩ .gsm7 1 = .error (.unmappable 'あ') := rfl
  rw [List.singleton_append, hrefused] at hs
  cases hs

end ShortMessage.UserData
