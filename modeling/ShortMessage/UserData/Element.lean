import ShortMessage.Wire.Decoder

/-!
# Information elements

The header of user data is a sequence of elements, each a key octet, a length octet and a value.
Elements that join the parts of a long message or name application ports are read into fields;
all others, and known keys with a value of another length, are kept as they are.
-/

namespace ShortMessage

/-- An element of the user data header. -/
inductive Element where
  /-- One part of a longer message, with an octet to tell messages apart. -/
  | concatenated (reference total sequence : UInt8)
  /-- The ports of the applications, one octet each. -/
  | ports (destination originator : UInt8)
  /-- The ports of the applications, two octets each. -/
  | widePorts (destination originator : UInt16)
  /-- One part of a longer message, with two octets to tell messages apart. -/
  | wideConcatenated (reference : UInt16) (total sequence : UInt8)
  /-- Any other element. -/
  | generic (key : UInt8) (value : Octets)
  deriving DecidableEq, Repr

namespace Element

/-- The higher octet first. -/
private def bigEndian (w : UInt16) : Octets := [UInt8.ofNat (w.toNat / 256), UInt8.ofNat w.toNat]

/-- Two octets, the higher one first. -/
private def wide (high low : UInt8) : UInt16 := UInt16.ofNat (high.toNat * 256 + low.toNat)

/-- The octet that says what an element is. -/
def key : Element → UInt8
  | .concatenated _ _ _ => 0x00
  | .ports _ _ => 0x04
  | .widePorts _ _ => 0x05
  | .wideConcatenated _ _ _ => 0x08
  | .generic key _ => key

/-- The value octets of an element. -/
def value : Element → Octets
  | .concatenated reference total sequence => [reference, total, sequence]
  | .ports destination originator => [destination, originator]
  | .widePorts destination originator => bigEndian destination ++ bigEndian originator
  | .wideConcatenated reference total sequence => bigEndian reference ++ [total, sequence]
  | .generic _ value => value

/-- The element with this key and value. -/
def ofRaw (key : UInt8) (value : Octets) : Element :=
  match key.toNat, value with
  | 0x00, [reference, total, sequence] => .concatenated reference total sequence
  | 0x04, [destination, originator] => .ports destination originator
  | 0x05, [a, b, c, d] => .widePorts (wide a b) (wide c d)
  | 0x08, [a, b, total, sequence] => .wideConcatenated (wide a b) total sequence
  | _, _ => .generic key value

@[simp] private theorem bigEndian_wide (high low : UInt8) :
    bigEndian (wide high low) = [high, low] := by
  have hhigh := high.toNat_lt
  have hlow := low.toNat_lt
  have hw : (wide high low).toNat = high.toNat * 256 + low.toNat := Nat.mod_eq_of_lt (by omega)
  have hdiv : (high.toNat * 256 + low.toNat) / 256 = high.toNat := by omega
  have hmod : UInt8.ofNat (high.toNat * 256 + low.toNat) = low := by
    refine UInt8.toNat_inj.1 ?_
    rw [UInt8.toNat_ofNat']
    omega
  rw [bigEndian, hw, hdiv, hmod, UInt8.ofNat_toNat]

@[simp] theorem key_ofRaw (key : UInt8) (value : Octets) : (ofRaw key value).key = key := by
  unfold ofRaw
  split <;> simp only [Element.key]
  all_goals exact UInt8.toNat_inj.1 (Eq.symm (by assumption))

@[simp] theorem value_ofRaw (key : UInt8) (value : Octets) : (ofRaw key value).value = value := by
  unfold ofRaw
  split <;> simp [Element.value]

/-- The reference, the number of parts and the place of this part, for a part of a message. -/
def concatenation? : Element → Option (UInt16 × UInt8 × UInt8)
  | .concatenated reference total sequence => some (reference.toUInt16, total, sequence)
  | .wideConcatenated reference total sequence => some (reference, total, sequence)
  | _ => none

/-- Key, length and value. -/
def encode (e : Element) : Except Fault Octets :=
  if e.value.length < 256 then .ok (e.key :: UInt8.ofNat e.value.length :: e.value)
  else .error (.field .elementTooLong)

/-- Reads key, length and value. -/
def decoder : Decoder Element := do
  let key ← Decoder.octet
  let value ← Decoder.block
  return ofRaw key value

/-- An element is read when as many octets follow its length as that says. -/
theorem decoder_cons_cons (key length : UInt8) (s : Octets) :
    decoder (key :: length :: s) =
      if s.length < length.toNat then .error .incomplete
      else .ok (ofRaw key (s.take length.toNat), s.drop length.toNat) := by
  show (Decoder.octets length.toNat >>= fun value => pure (ofRaw key value)) s = _
  by_cases h : s.length < length.toNat
  · simp [Decoder.octets, h, bind, StateT.bind, Except.bind]
  · simp [Decoder.octets, h, bind, StateT.bind, Except.bind]
    rfl

/-- A read element takes octets off the front. -/
theorem length_lt_of_decoder {s rest : Octets} {e : Element} (h : decoder s = .ok (e, rest)) :
    rest.length < s.length := by
  match s with
  | [] => cases h
  | [_] => cases h
  | key :: length :: t =>
    rw [decoder_cons_cons] at h
    split at h
    · cases h
    · cases h
      simp
      omega

end Element

/-- The header of user data. -/
abbrev Header := List Element

namespace Header

/-- The elements one after the other. -/
def encodeElements : Header → Except Fault Octets
  | [] => .ok []
  | e :: es => return (← e.encode) ++ (← encodeElements es)

/-- A length octet and the elements; nothing for a header without elements. -/
def encode (h : Header) : Except Fault Octets :=
  if h.isEmpty then .ok []
  else do
    let raw ← encodeElements h
    if raw.length < 256 then return UInt8.ofNat raw.length :: raw
    else throw (.field .headerTooLong)

/-- Reads elements until nothing is left. -/
def ofOctets (s : Octets) : Except Fault Header :=
  if s.isEmpty then .ok []
  else
    match _h : Element.decoder s with
    | .error fault => .error fault
    | .ok (e, rest) => return e :: (← ofOctets rest)
termination_by s.length
decreasing_by exact Element.length_lt_of_decoder (by assumption)

end Header

end ShortMessage
