import ShortMessage.Wire.Fault

/-!
# Reading octets

A `Decoder` takes a value off the front of a list of octets and leaves the rest to whoever reads
next, or fails for a `Fault`.  The readers here are the ones that every field is made of: single
octets, runs of a known length, and runs behind a length octet.  `Decoder.complete` reads a whole
message and accepts nothing after it.
-/

namespace ShortMessage

/-- A message or a part of one, as it travels. -/
abbrev Octets := List UInt8

/-- Reads a value off the front of the octets and leaves the rest. -/
abbrev Decoder (α : Type) := StateT Octets (Except Fault) α

namespace Decoder

/-- Gives up for a reason. -/
def fail {α : Type} (fault : Fault) : Decoder α := fun _ => .error fault

/-- Gives up because of one field. -/
def reject {α : Type} (fault : FieldFault) : Decoder α := fail (.field fault)

/-- Goes on with the value of a check, or gives up for its reason. -/
def ofExcept {α : Type} (r : Except Fault α) : Decoder α := fun s => r.map fun a => (a, s)

/-- The next octet. -/
def octet : Decoder UInt8
  | [] => .error .incomplete
  | b :: rest => .ok (b, rest)

/-- The next two octets, the higher one first. -/
def word : Decoder UInt16
  | high :: low :: rest => .ok (high.toUInt16 <<< 8 ||| low.toUInt16, rest)
  | _ => .error .incomplete

/-- The next `n` octets. -/
def octets (n : Nat) : Decoder Octets := fun s =>
  if s.length < n then .error .incomplete else .ok (s.take n, s.drop n)

/-- The next octet, which stays to be read. -/
def peek : Decoder UInt8
  | [] => .error .incomplete
  | b :: rest => .ok (b, b :: rest)

/-- As many octets as the octet in front of them says. -/
def block : Decoder Octets := do
  let length ← octet
  octets length.toNat

/-- How many octets are left. -/
def remaining : Decoder Nat := fun s => .ok (s.length, s)

/-- Nothing may be left. -/
def finish : Decoder Unit
  | [] => .ok ((), [])
  | s => .error (.trailing s.length)

/-- Reads one value that makes up all the octets. -/
def complete {α : Type} (d : Decoder α) (s : Octets) : Except Fault α := do
  let (a, rest) ← d s
  let _ ← finish rest
  return a

end Decoder

/-- A value behind an octet with its length; `field` is the one to blame for a longer value. -/
def lengthPrefixed (field : String) (value : Octets) : Except Fault Octets :=
  if value.length < 256 then .ok (UInt8.ofNat value.length :: value)
  else .error (.field (.lengthOctet field value.length))

end ShortMessage
