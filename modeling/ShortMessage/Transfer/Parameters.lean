import ShortMessage.UserData.Basic
import ShortMessage.Wire.Bits

/-!
# What reports may carry

A report may carry a protocol identifier, a coding scheme and user data.  The indicator octet says
which of them follow.  Without a coding scheme the user data is in the default alphabet.  A report
of failure has a cause in front, which is told from an indicator by its highest bit.
-/

namespace ShortMessage.Transfer

/-- The optional fields of a report. -/
structure Parameters where
  protocol : Option UInt8 := none
  coding : Option DataCoding := none
  userData : Option UserData := none
  deriving DecidableEq, Repr

namespace Parameters

/-- The bit that announces a protocol identifier. -/
def protocolBit : UInt8 := 0x01

/-- The bit that announces a coding scheme. -/
def codingBit : UInt8 := 0x02

/-- The bit that announces user data. -/
def userDataBit : UInt8 := 0x04

/-- The bit that announces another indicator. -/
def extensionBit : UInt8 := 0x80

/-- The indicator octet. -/
def indicator (p : Parameters) : UInt8 :=
  Bits.flag p.protocol.isSome protocolBit ||| Bits.flag p.coding.isSome codingBit |||
    Bits.flag p.userData.isSome userDataBit

/-- Is there none of the fields? -/
def isEmpty (p : Parameters) : Bool := p.indicator == 0

/-- Does the user data begin with a header? -/
def hasHeader (p : Parameters) : Bool := p.userData.any UserData.hasHeader

/-- The character set of the user data. -/
def charsetOf (coding : Option DataCoding) : CharacterSet := (coding.getD .gsm7).charset

/-- The fields that the indicator announces. -/
def encodeFields (p : Parameters) : Except Fault Octets := do
  let userData ← match p.userData with
    | none => pure []
    | some u => u.encode (charsetOf p.coding) UserData.maxOctets
  return p.protocol.toList ++ (p.coding.map DataCoding.octet).toList ++ userData

/-- The indicator and the fields that it announces. -/
def encode (p : Parameters) : Except Fault Octets := return p.indicator :: (← p.encodeFields)

/-- Reads an indicator. -/
def indicatorDecoder : Decoder UInt8 := do
  let indicator ← Decoder.octet
  if Bits.has indicator extensionBit then Decoder.reject .parametersExtended
  return indicator

/-- Reads a field if the indicator announces it. -/
def fieldDecoder {α : Type} (announced : Bool) (d : Decoder α) : Decoder (Option α) :=
  if announced then some <$> d else pure none

/-- Reads the fields that the indicator announces. -/
def fieldsDecoder (indicator : UInt8) (hasHeader : Bool) : Decoder Parameters := do
  let protocol ← fieldDecoder (Bits.has indicator protocolBit) Decoder.octet
  let coding ← fieldDecoder (Bits.has indicator codingBit) DataCoding.decoder
  let userData ← fieldDecoder (Bits.has indicator userDataBit)
    (UserData.decoder (charsetOf coding) hasHeader UserData.maxOctets)
  return { protocol, coding, userData }

/-- Reads an indicator and the fields that it announces. -/
def decoder (hasHeader : Bool) : Decoder Parameters := do
  let indicator ← indicatorDecoder
  fieldsDecoder indicator hasHeader

end Parameters

/-! ## The cause of a failure -/

/-- The bit that all causes have and no indicator has. -/
def failureBit : UInt8 := 0x80

/-- The octet of a cause, if there is one. -/
def encodeFailure : Option UInt8 → Except Fault Octets
  | none => .ok []
  | some cause =>
    if Bits.has cause failureBit then .ok [cause] else .error (.field (.failureCause cause))

/-- Reads a cause if one stands here. -/
def failureDecoder : Decoder (Option UInt8) := do
  let next ← Decoder.peek
  if Bits.has next failureBit then some <$> Decoder.octet else return none

end ShortMessage.Transfer
