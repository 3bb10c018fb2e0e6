import ShortMessage.Proofs.Codec.Rewriting
import ShortMessage.Proofs.Machine.Address

/-!
# User data on a machine

The header is collected behind a length octet that is only known at its end, the text character by
character while there is room, and both are slices of the octets that the length octet stands for.
Reading agrees with the decoder for every limit (`follows_userData`); writing agrees with the
encoder where the limit leaves room for the header (`writes_userData`).
-/

namespace ShortMessage

namespace Machine

open UserData

/-! ## Headers -/

/-- A number stored in an octet, if it fits; a fault otherwise. -/
def octetOr (fault : Fault) (n : Nat) : Checked UInt8 := if n < 256 then narrow n else throw fault

/-- The number of two octets, the higher one first. -/
def bigEndian (high low : UInt8) : UInt16 := UInt16.ofNat (high.toNat * 256 + low.toNat)

/-- The element with this key and value. -/
def elementOf (key : UInt8) (value : Octets) : Machine Element :=
  match key.toNat, value.length with
  | 0x00, 3 => return .concatenated (← get value 0) (← get value 1) (← get value 2)
  | 0x04, 2 => return .ports (← get value 0) (← get value 1)
  | 0x05, 4 =>
    return .widePorts (bigEndian (← get value 0) (← get value 1))
      (bigEndian (← get value 2) (← get value 3))
  | 0x08, 4 =>
    return .wideConcatenated (bigEndian (← get value 0) (← get value 1)) (← get value 2)
      (← get value 3)
  | _, _ => return .generic key value

/-- A value is only looked into at places that its length is known to have. -/
theorem elementOf_eq (key : UInt8) (value : Octets) :
    elementOf key value = .ok (Element.ofRaw key value) := by
  unfold elementOf Element.ofRaw
  generalize key.toNat = n
  split
  · obtain ⟨a, b, c, rfl⟩ := List.length_eq_three.1 ‹_›
    rfl
  · obtain ⟨a, b, rfl⟩ := List.length_eq_two.1 ‹_›
    rfl
  · obtain ⟨a, b, c, d, rfl⟩ := List.length_eq_four.1 ‹_›
    rfl
  · obtain ⟨a, b, c, d, rfl⟩ := List.length_eq_four.1 ‹_›
    rfl
  · split
    all_goals first | rfl | (exfalso; simp_all)

/-- The elements behind what was collected. -/
def elementOctets (out : Octets) : Header → Checked Octets
  | [] => return out
  | e :: es => do
    let length ← octetOr (.field .elementTooLong) e.value.length
    elementOctets (out ++ e.key :: length :: e.value) es

/-- The octets of a header; its length octet is set last. -/
def headerOctets (h : Header) : Checked Octets :=
  if h.isEmpty then return []
  else do
    let out ← elementOctets [0] h
    let length ← octetOr (.field .headerTooLong) (← sub out.length 1)
    set out 0 length

theorem gives_octetOr (fault : Fault) (n : Nat) :
    Checked.Gives (octetOr fault n) (if n < 256 then .ok (UInt8.ofNat n) else .error fault) :=
  Checked.gives_ite (fun h => Checked.gives_lift (narrow_eq h)) fun _ => Checked.gives_throw _

section

variable {α : Type} {c : Checked (List α)} {r : Except Fault (List α)} {s t : List α}

/-- Nothing more is collected. -/
theorem gives_collected (s : List α) :
    Checked.Gives (pure s) ((Except.ok [] : Except Fault _).map (s ++ ·)) := by
  show Checked.Gives _ (.ok (s ++ []))
  rw [List.append_nil]
  exact Checked.gives_pure s

/-- What was collected last stands in front of the rest. -/
theorem gives_collect (h : Checked.Gives c (r.map (s ++ t ++ ·))) :
    Checked.Gives c ((do return t ++ (← r)).map (s ++ ·)) := by
  cases r with
  | error fault => exact h
  | ok rest =>
    show Checked.Gives c (.ok (s ++ (t ++ rest)))
    rw [← List.append_assoc]
    exact h

end

theorem gives_elementOctets (out : Octets) (h : Header) :
    Checked.Gives (elementOctets out h) (h.encodeElements.map (out ++ ·)) := by
  induction h generalizing out with
  | nil => exact gives_collected out
  | cons e es ih =>
    have hlength := gives_octetOr (.field .elementTooLong) e.value.length
    rw [elementOctets, Header.encodeElements, Element.encode]
    by_cases hlt : e.value.length < 256
    · rw [if_pos hlt] at hlength ⊢
      exact hlength.ok_bind (gives_collect (ih _))
    · rw [if_neg hlt] at hlength ⊢
      exact hlength.error_bind

theorem gives_headerOctets (h : Header) : Checked.Gives (headerOctets h) h.encode := by
  refine Checked.gives_ite (fun _ => Checked.gives_pure []) fun _ => ?_
  refine (gives_elementOctets [0] h).bind_map fun raw _ => ?_
  refine Checked.Gives.step (sub_eq (Nat.le_add_left 1 _)) ?_
  have hlength := gives_octetOr (.field .headerTooLong) raw.length
  by_cases hlt : raw.length < 256
  · rw [if_pos hlt] at hlength ⊢
    exact hlength.ok_bind (Checked.gives_lift rfl)
  · rw [if_neg hlt] at hlength ⊢
    exact hlength.error_bind

/-! ## Text that fits -/

section

variable [Word]

/-- How many units a header of so many octets covers, and the fill bits behind it. -/
def headerCover (octets : Nat) : Machine (Nat × UInt8) := do
  let bits ← mul octets 8
  let units := ceilDiv bits 7
  let fill ← sub (← mul units 7) (← mul octets 8)
  return (units, ← narrow fill)

/-- Collects units while there is room. -/
def gatherUnits (room : Nat) (units : List UInt8) : List Char → Checked (List UInt8)
  | [] => return units
  | c :: cs => do
    let code ← Checked.ofExcept (Alphabet.unitsOf [c])
    let count ← add units.length code.length
    if room < count then return units else gatherUnits room (units ++ code) cs

/-- Collects octets while there is room. -/
def gatherOctets (room : Nat) (s : Octets) : List Char → Checked Octets
  | [] => return s
  | c :: cs =>
    if s.length = room then return s
    else do
      let b ← octetOr (.unmappable c) c.toNat
      gatherOctets room (s ++ [b]) cs

/-- Collects the octets of code units while there is room. -/
def gatherCodeUnits (room : Nat) (s : Octets) : List Char → Machine Octets
  | [] => return s
  | c :: cs => do
    let units := CodeUnits.ofChar c
    let count ← add s.length (← mul units.length 2)
    if room < count then return s
    else gatherCodeUnits room (s ++ units.flatMap codeUnitOctets) cs

/-- The units that a header covers stay within a word, and the fill bits within an octet. -/
theorem headerCover_eq {octets : Nat} (h : octets < 8000) :
    headerCover octets = .ok (UserData.headerUnits octets, UInt8.ofNat (fillBits octets)) := by
  have hunits : ceilDiv (octets * 8) 7 = UserData.headerUnits octets := rfl
  have hle : UserData.headerUnits octets * 7 < octets * 8 + 7 := by
    unfold UserData.headerUnits
    omega
  have hge : octets * 8 ≤ UserData.headerUnits octets * 7 := by
    unfold UserData.headerUnits
    omega
  rw [headerCover, mul_eq (by omega), ok_bind, hunits]
  dsimp only
  rw [mul_eq (by omega), ok_bind, ok_bind, sub_eq hge, ok_bind, narrow_eq (by omega), ok_bind]
  rfl

/-- Going through the text with the units so far finds the rest of the room for the rest of it. -/
theorem gives_gatherUnits {room : Nat} {units : List UInt8} (hroom : room < 60000)
    (hunits : units.length ≤ room) (text : List Char) :
    Checked.Gives (gatherUnits room units text)
      ((unitsThatFit (room - units.length) text).map (units ++ ·)) := by
  induction text generalizing units with
  | nil => exact gives_collected units
  | cons c cs ih =>
    rw [gatherUnits, unitsThatFit, Alphabet.unitsOf]
    cases hcode : Alphabet.codeOf? c with
    | none => exact Checked.gives_throw _
    | some code =>
      have hle := length_units_le code
      dsimp only
      refine Checked.Gives.ok_bind (Checked.gives_ofExcept (.ok (code.units ++ []))) ?_
      rw [List.append_nil]
      refine Checked.Gives.step (add_eq (by omega)) ?_
      by_cases hlt : room < units.length + code.units.length
      · rw [if_pos hlt, if_pos (by omega)]
        exact gives_collected units
      · have hrest := @ih (units ++ code.units) (by rw [List.length_append]; omega)
        rw [List.length_append, ← Nat.sub_sub] at hrest
        rw [if_neg hlt, if_neg (by omega)]
        exact gives_collect hrest

omit [Word] in
theorem gives_gatherOctets {room : Nat} {s : Octets} (hs : s.length ≤ room) (text : List Char) :
    Checked.Gives (gatherOctets room s text)
      ((octetsThatFit (room - s.length) text).map (s ++ ·)) := by
  induction text generalizing s with
  | nil =>
    rw [octetsThatFit]
    exact gives_collected s
  | cons c cs ih =>
    rw [gatherOctets]
    by_cases hfull : s.length = room
    · rw [if_pos hfull, hfull, Nat.sub_self]
      exact gives_collected s
    · obtain ⟨left, hleft⟩ : ∃ left, room - s.length = left + 1 := ⟨room - s.length - 1, by omega⟩
      rw [if_neg hfull, hleft, octetsThatFit]
      have hoctet := gives_octetOr (.unmappable c) c.toNat
      by_cases hc : c.toNat < 256
      · have hrest := @ih (s ++ [UInt8.ofNat c.toNat]) (by simp; omega)
        rw [List.length_append, List.length_singleton,
          show room - (s.length + 1) = left by omega] at hrest
        rw [if_pos hc] at hoctet ⊢
        exact hoctet.ok_bind (gives_collect hrest)
      · rw [if_neg hc] at hoctet ⊢
        exact hoctet.error_bind

theorem gatherCodeUnits_eq {room : Nat} {s : Octets} (hroom : room < 60000)
    (hs : s.length ≤ room) (text : List Char) :
    gatherCodeUnits room s text = .ok (s ++ codeUnitsThatFit (room - s.length) text) := by
  induction text generalizing s with
  | nil =>
    rw [codeUnitsThatFit, List.append_nil]
    rfl
  | cons c cs ih =>
    have hle := CodeUnits.length_ofChar_le c
    have hlength := length_codeUnits c
    rw [gatherCodeUnits, mul_eq (by omega), ok_bind, add_eq (by omega), ok_bind, codeUnitsThatFit,
      hlength]
    by_cases hlt : room < s.length + (CodeUnits.ofChar c).length * 2
    · rw [if_pos hlt, if_pos (by omega), List.append_nil]
      rfl
    · rw [if_neg hlt, if_neg (by omega), ih (by rw [List.length_append]; omega),
        List.length_append, hlength, Nat.sub_sub, List.append_assoc]

end

/-! ## Octets that are there -/

/-- The code unit of two octets. -/
def codeUnitOf (pair : Octets) : Machine Nat := do
  return (← get pair 0).toNat * 256 + (← get pair 1).toNat

theorem codeUnits_eq {body : Octets} (h : body.length % 2 = 0) :
    (pairsOf body).mapM codeUnitOf = .ok (pairs body) := by
  match body with
  | [] => rfl
  | [_] => cases h
  | high :: low :: rest =>
    rw [List.length_cons, List.length_cons, Nat.add_assoc, Nat.add_mod_right] at h
    have hrest := codeUnits_eq h
    rw [pairsOf, List.mapM_cons, hrest]
    rfl

end Machine

/-! ## Reading -/

namespace Scanner

open Machine UserData

/-- Reads an element. -/
def element : Scanner Element := do
  let key ← octet
  let value ← block
  elementOf key value

theorem follows_element : Follows element Element.decoder := by
  refine follows_octet.bind fun key => follows_block.bind fun value => ?_
  intro s
  rw [elementOf_eq]
  rfl

/-- Reads elements until nothing is left. -/
def elements (s : Octets) : Checked Header :=
  if s.isEmpty then return []
  else
    match _h : (element.run s).run with
    | .error trap => liftM (Except.error trap : Machine Header)
    | .ok (.error fault) => throw fault
    | .ok (.ok (e, rest)) => return e :: (← elements rest)
termination_by s.length
decreasing_by
  have hgives : (element.run s).run = .ok (Element.decoder s) := follows_element s
  exact Element.length_lt_of_decoder (Except.ok.inj (hgives.symm.trans (by assumption)))

/-- Elements are read until no octets are left, and each of them takes some. -/
theorem gives_elements (s : Octets) : Checked.Gives (elements s) (Header.ofOctets s) := by
  have hgives : (element.run s).run = .ok (Element.decoder s) := follows_element s
  rw [elements, Header.ofOctets]
  refine Checked.gives_ite (fun _ => Checked.gives_pure []) fun _ => ?_
  split
  · rename_i trap h
    rw [hgives] at h
    cases h
  · rename_i fault h
    have hread : Element.decoder s = .error fault := Except.ok.inj (hgives.symm.trans h)
    split
    · rename_i h'
      cases hread.symm.trans h'
      exact Checked.gives_throw _
    · rename_i h'
      cases hread.symm.trans h'
  · rename_i e rest h
    have hread : Element.decoder s = .ok (e, rest) := Except.ok.inj (hgives.symm.trans h)
    split
    · rename_i h'
      cases hread.symm.trans h'
    · rename_i h'
      cases hread.symm.trans h'
      exact (gives_elements rest).bind fun es _ => Checked.gives_pure _
termination_by s.length
decreasing_by exact Element.length_lt_of_decoder (by assumption)

variable [Word]

/-- The header at the front of user data, and how many octets it takes. -/
def header (data : Octets) : Checked (Header × Nat) :=
  match data.head? with
  | none => throw .incomplete
  | some length =>
    if data.length < length.toNat + 1 then throw .incomplete
    else do
      let raw ← (sliceTo (data.drop 1) length.toNat : Machine Octets)
      let elements ← elements raw
      let count ← add length.toNat 1
      return (elements, count)

/-- The text behind a header of `header` octets, in user data of this length. -/
def text (charset : CharacterSet) (length header : Nat) (body : Octets) : Checked (List Char) :=
  match charset with
  | .gsm7 => do
    let (covered, fill) ← headerCover header
    if length < covered then throw (.field .headerOverUserData)
    else do
      let units ← unpackUnits body fill (← sub length covered)
      readUnits units
  | .eightBit => return body.map fun b => Char.ofNat b.toNat
  | .ucs2 =>
    if body.length % 2 ≠ 0 then throw (.field .oddOctets)
    else do
      let units ← ((pairsOf body).mapM codeUnitOf : Machine (List Nat))
      return CodeUnits.toChars units

/-- How many octets a length octet stands for. -/
def octetCount (charset : CharacterSet) (length : Nat) : Machine Nat :=
  match charset with
  | .gsm7 => do return ceilDiv (← mul length 7) 8
  | .eightBit | .ucs2 => return length

/-- Reads the length octet, the header if there is one, and the text. -/
def userData (charset : CharacterSet) (hasHeader : Bool) (limit : Nat) : Scanner UserData := do
  let length := (← octet).toNat
  let count ← octetCount charset length
  if limit < count then throw (.field (.userDataOverLimit length limit))
  let data ← octets count
  let (header, headerOctets) ← if hasHeader then liftM (header data) else pure ([], 0)
  let body ← sliceFrom data headerOctets
  let text ← text charset length headerOctets body
  return ⟨header, text⟩

theorem gives_header {data : Octets} (hdata : data.length < 8000) :
    Checked.Gives (header data) (readHeader data) := by
  cases data with
  | nil => exact Checked.gives_throw _
  | cons length rest =>
    have hlt := length.toNat_lt
    show Checked.Gives (if rest.length + 1 < length.toNat + 1 then _ else _)
      (if rest.length < length.toNat then _ else _)
    simp only [Nat.add_lt_add_iff_right]
    refine Checked.gives_ite (fun _ => Checked.gives_throw _) fun hle => ?_
    refine Checked.Gives.step (sliceTo_eq (Nat.not_lt.1 hle)) ?_
    refine (gives_elements _).bind fun es _ => ?_
    exact Checked.Gives.step (add_eq (by omega)) (Checked.gives_pure _)

theorem octetCount_eq (charset : CharacterSet) {length : Nat} (h : length < 256) :
    octetCount charset length = .ok (octetsOfLength charset length) := by
  cases charset with
  | gsm7 =>
    rw [octetCount, mul_eq (by omega)]
    rfl
  | eightBit => rfl
  | ucs2 => rfl

/-- What the header covers is only taken away from the length once it is known to be no more. -/
theorem gives_text (charset : CharacterSet) {length header : Nat} (hlength : length < 256)
    (hheader : header < 8000) (body : Octets) :
    Checked.Gives (text charset length header body) (readText charset length header body) := by
  cases charset with
  | gsm7 =>
    refine Checked.Gives.step (headerCover_eq hheader) ?_
    refine Checked.gives_ite (fun _ => Checked.gives_throw _) fun hle => ?_
    refine Checked.Gives.step (sub_eq (Nat.not_lt.1 hle)) ?_
    have hwide := Word.wide
    refine (gives_unpackUnits body _ (by omega)).bind fun units _ => ?_
    exact Checked.gives_lift (readUnits_eq units)
  | eightBit => exact Checked.gives_pure _
  | ucs2 =>
    refine Checked.gives_ite (fun _ => Checked.gives_throw _) fun heven => ?_
    exact Checked.Gives.step (codeUnits_eq (not_not.1 heven)) (Checked.gives_pure _)

/-- Whatever octets arrive, user data is read from them without a trap, in every alphabet. -/
theorem follows_userData (charset : CharacterSet) (hasHeader : Bool) (limit : Nat) :
    Follows (userData charset hasHeader limit) (UserData.decoder charset hasHeader limit) := by
  refine follows_octet.bind fun length => ?_
  have hlength := length.toNat_lt
  refine Follows.step (octetCount_eq charset hlength) ?_
  refine follows_ite (fun _ => follows_throw_bind _) fun _ => ?_
  refine Follows.bind_of (follows_octets _) (yields_octets _) fun data hdata => ?_
  have hsmall : data.length < 256 := by
    rw [hdata]
    cases charset with
    | gsm7 =>
      show (length.toNat * 7 + 7) / 8 < 256
      omega
    | eightBit => exact hlength
    | ucs2 => exact hlength
  have hrest : ∀ (es : Header) (n : Nat), n ≤ data.length →
      Follows (do
        let body ← sliceFrom data n
        let text ← text charset length.toNat n body
        return (⟨es, text⟩ : UserData))
      (do
        let text ← Decoder.ofExcept (readText charset length.toNat n (data.drop n))
        return ⟨es, text⟩) := by
    intro es n hn
    refine Follows.step (sliceFrom_eq hn) ?_
    exact Follows.check (gives_text charset hlength (by omega) _) fun text _ => follows_pure _
  refine follows_ite (fun _ => ?_) fun _ => ?_
  · refine Follows.check (gives_header (by omega)) fun r hr => ?_
    obtain ⟨es, n⟩ := r
    exact hrest es n (encode_of_readHeader hr).1
  · exact hrest [] 0 (Nat.zero_le _)

end Scanner

/-! ## Writing -/

namespace Printer

open Machine UserData

variable [Word] {u : UserData} {charset : CharacterSet} {limit n : Nat}

/-- The length octet and the octets of the text, behind a header of `header` octets. -/
def textOctets (text : List Char) (charset : CharacterSet) (limit header : Nat) :
    Checked (UInt8 × Octets) :=
  match charset with
  | .gsm7 => do
    let (covered, fill) ← headerCover header
    let bits ← mul limit 8
    let room ← sub (bits / 7) covered
    let units ← gatherUnits room [] text
    let length ← narrow (← add covered units.length)
    return (length, ← packUnits units fill)
  | .eightBit => do
    let room ← sub limit header
    let octets ← gatherOctets room [] text
    let length ← narrow (← add header octets.length)
    return (length, octets)
  | .ucs2 => do
    let room ← sub limit header
    let octets ← gatherCodeUnits room [] text
    let length ← narrow (← add header octets.length)
    return (length, octets)

/-- Writes the length octet, the header and as much of the text as fits the limit. -/
def userData (u : UserData) (charset : CharacterSet) (limit : Nat) : Printer Unit := do
  let header ← check (headerOctets u.header)
  if limit < header.length then throw (.field (.headerOverLimit header.length limit))
  let (length, text) ← check (textOctets u.text charset limit header.length)
  put [length]
  put header
  put text

/-- Where the limit admits the header, no length that is counted leaves its octet. -/
theorem gives_textOctets {header : Nat} (text : List Char) (ha : Admits charset limit header) :
    Checked.Gives (textOctets text charset limit header)
      (encodeText text charset limit header) := by
  obtain ⟨hheader, hlimit, hunits⟩ := ha
  cases charset with
  | gsm7 =>
    obtain ⟨hlt, hle⟩ := hunits rfl
    refine Checked.Gives.step (headerCover_eq (by omega)) ?_
    refine Checked.Gives.step (mul_eq (by omega)) (Checked.Gives.step (sub_eq hle) ?_)
    have hgather := @gives_gatherUnits _ (limit * 8 / 7 - headerUnits header) [] (by omega)
      (Nat.zero_le _) text
    refine hgather.bind_map fun units hunits => ?_
    have hfits := length_unitsThatFit hunits
    refine Checked.Gives.step (add_eq (by simp; omega)) ?_
    refine Checked.Gives.step (narrow_eq (by simp; omega)) ?_
    have hwide := Word.wide
    exact Checked.Gives.step (packUnits_eq _ (by simp; omega)) (Checked.gives_pure _)
  | eightBit =>
    refine Checked.Gives.step (sub_eq hheader) ?_
    have hgather := @gives_gatherOctets (limit - header) [] (Nat.zero_le _) text
    refine hgather.bind_map fun octets hoctets => ?_
    have hfits := length_octetsThatFit hoctets
    refine Checked.Gives.step (add_eq (by simp; omega)) ?_
    exact Checked.Gives.step (narrow_eq (by simp; omega)) (Checked.gives_pure _)
  | ucs2 =>
    have hfits := length_codeUnitsThatFit (limit - header) text
    refine Checked.Gives.step (sub_eq hheader) ?_
    refine Checked.Gives.step (gatherCodeUnits_eq (by omega) (Nat.zero_le _) text) ?_
    refine Checked.Gives.step (add_eq (by simp; omega)) ?_
    exact Checked.Gives.step (narrow_eq (by simp; omega)) (Checked.gives_pure _)

/-- User data is written with all its octets, or not at all. -/
theorem writesWhole_userData (ha : u.header.size ≤ limit → Admits charset limit u.header.size) :
    WritesWhole (userData u charset limit) (u.encode charset limit) := by
  refine WritesWhole.check (gives_headerOctets u.header) fun header hheader => ?_
  refine writesWhole_ite (fun _ => writesWhole_throw_bind _) fun hle => ?_
  rw [← Header.length_encode hheader] at ha
  refine WritesWhole.check (gives_textOctets u.text (ha (Nat.not_lt.1 hle))) fun r _ => ?_
  exact WritesWhole.put (WritesWhole.put (writesWhole_put _))

theorem writes_userData (ha : u.header.size ≤ limit → Admits charset limit u.header.size) :
    Writes [] (userData u charset limit) (u.encode charset limit) :=
  (writesWhole_userData ha).writes

end Printer

end ShortMessage
