import ShortMessage.Wire.Decoder

/-!
# Reading and writing step by step

A `Reading` is one step of going through octets by hand.  Unlike a decoder it goes on after a
failure, so it says what is left in that case too: only the length octet of a block is used up
when the block behind it is cut short.  A `Writing` is one step of building octets, and one that
fails adds nothing.
-/

namespace ShortMessage

/-- One step through the octets. -/
inductive Reading where
  | octet
  | word
  | octets (count : Nat)
  | block
  | peek
  | finish
  deriving DecidableEq, Repr

/-- What a step through the octets finds. -/
inductive Reading.Found where
  | number (n : Nat)
  | octets (s : Octets)
  | nothing
  deriving DecidableEq, Repr

namespace Reading

/-- The decoder that a step uses. -/
def decoder : Reading → Decoder Found
  | .octet => return .number (← Decoder.octet).toNat
  | .word => return .number (← Decoder.word).toNat
  | .octets count => return .octets (← Decoder.octets count)
  | .block => return .octets (← Decoder.block)
  | .peek => return .number (← Decoder.peek).toNat
  | .finish => do Decoder.finish; return .nothing

/-- What a failed step leaves. -/
def leftAfterFailure : Reading → Octets → Octets
  | .block, s => s.drop 1
  | _, s => s

/-- One step: what it finds, and what it leaves. -/
def perform (r : Reading) (s : Octets) : Except Fault Found × Octets :=
  match r.decoder s with
  | .ok (found, rest) => (.ok found, rest)
  | .error fault => (.error fault, r.leftAfterFailure s)

/-- The steps one after the other; each with how many octets have been used after it. -/
def performAll (steps : List Reading) (s : Octets) : List (Except Fault Found × Nat) :=
  go steps s
where
  /-- The steps from where `rest` is left. -/
  go : List Reading → Octets → List (Except Fault Found × Nat)
    | [], _ => []
    | r :: rs, rest =>
      let (found, left) := r.perform rest
      (found, s.length - left.length) :: go rs left

end Reading

/-- One step of building octets. -/
inductive Writing where
  | octet (value : UInt8)
  | block (field : String) (value : Octets)
  deriving DecidableEq, Repr

namespace Writing

/-- The octets that a step adds. -/
def octets : Writing → Except Fault Octets
  | .octet value => .ok [value]
  | .block field value => lengthPrefixed field value

/-- The steps one after the other: how each went, with the length after it, and all the octets. -/
def performAll : List Writing → Octets → List (Except Fault Unit × Nat) × Octets
  | [], written => ([], written)
  | w :: ws, written =>
    let (went, now) := match w.octets with
      | .ok more => (.ok (), written ++ more)
      | .error fault => (.error fault, written)
    let (rest, all) := performAll ws now
    ((went, now.length) :: rest, all)

end Writing

end ShortMessage
