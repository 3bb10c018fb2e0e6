import ShortMessage.Alphabet.Text

/-!
# Packed units

Units of seven bits fill octets without gaps, the lowest bit first, so that a packed text is one
number written in base 256 that has the units as its digits in base 128.  It may start inside the
first octet: `offset` low bits of that are left alone.  When exactly seven bits of the last octet
would be left over they are filled with `filler`, which no reader can take for an `@`.
-/

namespace ShortMessage.Alphabet

/-- What stands in seven bits that are left over. -/
def filler : UInt8 := 0x1A

/-- Packs units behind the `width` bits of `carry`, with `width` at most seven. -/
def packFrom (carry width : Nat) : List UInt8 → Octets
  | [] =>
    if width = 0 then []
    else if width = 1 then [UInt8.ofNat (carry + filler.toNat * 2)]
    else [UInt8.ofNat carry]
  | u :: us =>
    let carry := carry + ((u.toNat % 128) <<< width)
    if width = 0 then packFrom carry 7 us
    else UInt8.ofNat carry :: packFrom (carry / 256) (width - 1) us

/-- Packs units from the bit `offset` of the first octet on; only its low three bits count. -/
def pack (units : List UInt8) (offset : UInt8) : Octets := packFrom 0 (offset.toNat % 8) units

/-- How many octets `count` units take from the bit `offset` on. -/
def packedLength (offset count : Nat) : Nat := (offset + 7 * count + 7) / 8

/-- Takes `count` units off the `width` bits of `carry` and the octets behind them. -/
def unpackFrom (carry width : Nat) : Nat → Octets → List UInt8
  | 0, _ => []
  | count + 1, s =>
    if 7 ≤ width then
      UInt8.ofNat (carry % 128) :: unpackFrom (carry / 128) (width - 7) count s
    else
      match s with
      | [] => []
      | b :: rest =>
        let carry := carry + (b.toNat <<< width)
        UInt8.ofNat (carry % 128) :: unpackFrom (carry / 128) (width + 1) count rest

/-- Reads `count` units from the bit `offset` of the first octet on; only its low three bits
count.  Here `count` is any number; a machine counts the bits in a word, and stops where a word does
not hold them (`Machine.unpackUnits`). -/
def unpack (s : Octets) (offset : UInt8) (count : Nat) : Except Fault (List UInt8) :=
  let skipped := offset.toNat % 8
  if s.length < packedLength skipped count then .error .incomplete
  else
    match s with
    | [] => .ok []
    | b :: rest => .ok (unpackFrom (b.toNat >>> skipped) (8 - skipped) count rest)

/-- Text can start at one of the bits 0 to 6. -/
def checkOffset (offset : UInt8) : Except Fault Unit :=
  if offset < 7 then .ok () else .error (.field (.bitOffset offset))

/-- Packs a text from the bit `offset` of the first octet on. -/
def packText (text : List Char) (offset : UInt8) : Except Fault Octets := do
  checkOffset offset
  return pack (← unitsOf text) offset

/-- Reads the text of `count` packed units from the bit `offset` of the first octet on. -/
def unpackText (s : Octets) (offset : UInt8) (count : Nat) : Except Fault (List Char) := do
  checkOffset offset
  return textOf (← unpack s offset count)

end ShortMessage.Alphabet
