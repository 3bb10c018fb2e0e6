import ShortMessage.Alphabet.Table

/-!
# Text as units of the default alphabet

`unitsOf` writes text as units and `textOf` reads units back.  Reading accepts every list of
units: an escape in front of a unit without an extension character is dropped, and an escape with
no unit of its own, at the end or in front of another escape, is read as a space.
-/

namespace ShortMessage.Alphabet

/-- How many units a character takes, if the alphabet has it. -/
def charUnits? (c : Char) : Option Nat := (codeOf? c).map (·.units.length)

/-- Does the alphabet have the character? -/
def hasChar (c : Char) : Bool := (codeOf? c).isSome

/-- How many units a text takes. -/
def unitCount : List Char → Except Fault Nat
  | [] => .ok 0
  | c :: cs =>
    match charUnits? c with
    | none => .error (.unmappable c)
    | some n => return n + (← unitCount cs)

/-- The units of a text. -/
def unitsOf : List Char → Except Fault (List UInt8)
  | [] => .ok []
  | c :: cs =>
    match codeOf? c with
    | none => .error (.unmappable c)
    | some code => return code.units ++ (← unitsOf cs)

/-- The character for a unit behind an escape. -/
def escapedChar (u : UInt8) : Char :=
  if u = escape then ' ' else (extensionChar? u).getD (basicChar u)

/-- The text that units stand for, each below 128. -/
private def textOfSeptets : List UInt8 → List Char
  | [] => []
  | [u] => [if u = escape then ' ' else basicChar u]
  | u :: v :: rest =>
    if u = escape then escapedChar v :: textOfSeptets rest
    else basicChar u :: textOfSeptets (v :: rest)

/-- The text that units stand for; only their low seven bits count. -/
def textOf (units : List UInt8) : List Char := textOfSeptets (units.map (· &&& 0x7F))

@[simp] theorem textOf_masked (units : List UInt8) :
    textOf (units.map (· &&& 0x7F)) = textOf units := by
  simp [textOf, Function.comp_def, UInt8.and_assoc]

/-! ## One character at a time -/

@[simp] theorem textOf_nil : textOf [] = [] := rfl

/-- An escape with nothing behind it. -/
theorem textOf_escape_nil {u : UInt8} (hu : u &&& 0x7F = escape) : textOf [u] = [' '] :=
  congrArg (fun c => [c]) (if_pos hu)

/-- An escape and the unit behind it are one character. -/
theorem textOf_escape_cons {u : UInt8} (hu : u &&& 0x7F = escape) (v : UInt8)
    (units : List UInt8) : textOf (u :: v :: units) = escapedChar (v &&& 0x7F) :: textOf units :=
  if_pos hu

/-- Any other unit is a character of its own. -/
theorem textOf_basic_cons {u : UInt8} (hu : u &&& 0x7F ≠ escape) (units : List UInt8) :
    textOf (u :: units) = basicChar (u &&& 0x7F) :: textOf units := by
  cases units with
  | nil => exact congrArg (fun c => [c]) (if_neg hu)
  | cons v units => exact if_neg hu

end ShortMessage.Alphabet
