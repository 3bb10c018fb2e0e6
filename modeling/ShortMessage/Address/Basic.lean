import ShortMessage.Address.Digits
import ShortMessage.Address.Numbering
import ShortMessage.Alphabet.Packing

/-!
# Addresses

An address is a string of digits or, as a sender's name, a text in the default alphabet.  It has
two written forms.  The transfer form (`encode`, `decoder`) counts semi-octets and holds digits or
text; the relay form (`encodeRelay`, `relayDecoder`) counts octets, holds digits only, and has a
single zero octet for an address that is left out.
-/

namespace ShortMessage

/-- What an address consists of. -/
inductive Address.Value where
  | digits (ds : Digits)
  | text (cs : List Char)
  deriving DecidableEq, Repr

/-- The address of a subscriber, a service centre or a named sender. -/
structure Address where
  typeOfNumber : TypeOfNumber
  plan : NumberingPlan
  value : Address.Value
  deriving DecidableEq, Repr

namespace Address

/-- Octets of the longest transfer address, its length octet and type octet included. -/
def maxOctets : Nat := 12

/-- Value octets of the longest relay address. -/
def maxRelayValue : Nat := 10

/-- The octet that says what kind of number the value is. -/
def kindOctet (a : Address) : UInt8 :=
  (0x80 : UInt8) ||| a.typeOfNumber.code <<< 4 ||| (a.plan.code &&& 0x0F)

/-- The rules on type of number and numbering plan, and the size of the transfer form. -/
def validate (a : Address) : Except Fault Unit :=
  match a.value with
  | .text cs =>
    if a.typeOfNumber = .alphanumeric ∧ a.plan = .unknown then do
      let units ← Alphabet.unitCount cs
      if (units * 7 + 7) / 8 + 2 ≤ maxOctets then return ()
      else throw (.field (.textTooLong units))
    else .error (.field .textTypeOfNumber)
  | .digits ds =>
    if a.typeOfNumber = .alphanumeric then .error (.field .digitsAlphanumeric)
    else if ds.packedLength + 2 ≤ maxOctets then .ok ()
    else .error (.field (.digitsTooLong ds.length))

/-- A valid address with these digits. -/
def ofDigits (typeOfNumber : TypeOfNumber) (plan : NumberingPlan) (digits : List Char) :
    Except Fault Address := do
  let a : Address := ⟨typeOfNumber, plan, .digits (← Digits.ofChars digits)⟩
  a.validate
  return a

/-- A valid international number. -/
def international (digits : List Char) : Except Fault Address :=
  ofDigits .international .isdn digits

/-- A valid sender's name. -/
def alphanumeric (text : List Char) : Except Fault Address := do
  let a : Address := ⟨.alphanumeric, .unknown, .text text⟩
  a.validate
  return a

/-- The address as a reader writes it: international numbers begin with a plus sign. -/
def display (a : Address) : List Char :=
  match a.value with
  | .text cs => cs
  | .digits ds => if a.typeOfNumber = .international then '+' :: ds.toChars else ds.toChars

/-! ## The transfer form -/

/-- The length in semi-octets, the kind of number and the value. -/
def encode (a : Address) : Except Fault Octets := do
  a.validate
  match a.value with
  | .digits ds => return UInt8.ofNat ds.length :: a.kindOctet :: ds.pack
  | .text cs =>
    let units ← Alphabet.unitsOf cs
    return UInt8.ofNat ((units.length * 7 + 3) / 4) :: a.kindOctet :: Alphabet.pack units 0

/-- Reads the transfer form.  Text takes as many units as fit the semi-octets. -/
def decoder : Decoder Address := do
  let length := (← Decoder.octet).toNat
  let octets := (length + 1) / 2
  if maxOctets < octets + 2 then Decoder.reject (.addressLength length)
  let kind ← Decoder.octet
  let typeOfNumber := TypeOfNumber.ofAddressOctet kind
  let plan := NumberingPlan.ofAddressOctet kind
  let raw ← Decoder.octets octets
  if typeOfNumber = .alphanumeric then
    let units ← Decoder.ofExcept (Alphabet.unpack raw 0 (length * 4 / 7))
    return ⟨typeOfNumber, plan, .text (Alphabet.textOf units)⟩
  else
    let digits ← Decoder.ofExcept (Digits.unpackCount raw length)
    return ⟨typeOfNumber, plan, .digits digits⟩

/-! ## The relay form -/

/-- The length in octets, the kind of number and the digits. -/
def encodeRelay (a : Address) : Except Fault Octets :=
  match a.value with
  | .text _ => .error (.field .relayAddressText)
  | .digits ds =>
    if ds.packedLength ≤ maxRelayValue then
      .ok (UInt8.ofNat (1 + ds.packedLength) :: a.kindOctet :: ds.pack)
    else .error (.field (.relayDigitsTooLong ds.length))

/-- The relay form of an address that is left out. -/
def absentRelay : Octets := [0]

/-- Reads the relay form; `none` is an address that is left out. -/
def relayDecoder : Decoder (Option Address) := do
  let length := (← Decoder.octet).toNat
  if length = 0 then return none
  if maxRelayValue + 1 < length then Decoder.reject (.relayAddressLength length)
  let kind ← Decoder.octet
  let raw ← Decoder.octets (length - 1)
  let digits ← Decoder.ofExcept (Digits.unpack raw)
  return some ⟨.ofAddressOctet kind, .ofAddressOctet kind, .digits digits⟩

end Address

end ShortMessage
