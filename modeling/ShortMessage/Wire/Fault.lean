import ShortMessage.Text.Numeral
import ShortMessage.Text.Quoted

/-!
# What can be wrong with an encoding

Reading and writing fail for a cause.  `Fault` lists the causes, `FieldFault` those that concern
one field of a message, and `Fault.message` is the only place that words them.
-/

namespace ShortMessage

/-- The protocol layer that a message type belongs to. -/
inductive Layer where
  /-- The transfer layer, between the applications. -/
  | transfer
  /-- The relay layer, between the relay entities. -/
  | relay
  /-- The control layer, on one signalling connection. -/
  | control
  deriving DecidableEq, Repr

/-- The two letters that name a layer in messages. -/
def Layer.label : Layer → String
  | .transfer => "TP"
  | .relay => "RP"
  | .control => "CP"

/-- The parts of a date, a time of day or a period that are written as two digits. -/
inductive ClockPart where
  | year | month | day | hour | minute | second | zone
  | hours | minutes | seconds
  deriving DecidableEq, Repr

/-- The word for a part of a date in messages. -/
def ClockPart.label : ClockPart → String
  | .year => "year"
  | .month => "month"
  | .day => "day"
  | .hour => "hour"
  | .minute => "minute"
  | .second => "second"
  | .zone => "time zone"
  | .hours => "hours"
  | .minutes => "minutes"
  | .seconds => "seconds"

/-- What is wrong with one field of a message. -/
inductive FieldFault where
  /-- Packed text can only start at one of the bits 0 to 6. -/
  | bitOffset (offset : UInt8)
  /-- Text needs the alphanumeric type of number and the unknown numbering plan. -/
  | textTypeOfNumber
  /-- The units of an alphanumeric address overflow it. -/
  | textTooLong (units : Nat)
  /-- Digits cannot have the alphanumeric type of number. -/
  | digitsAlphanumeric
  /-- The digits of a transfer address overflow it. -/
  | digitsTooLong (digits : Nat)
  /-- A transfer address announces more semi-octets than it may hold. -/
  | addressLength (length : Nat)
  /-- Relay addresses are made of digits. -/
  | relayAddressText
  /-- The digits of a relay address overflow it. -/
  | relayDigitsTooLong (digits : Nat)
  /-- A relay address announces more octets than it may hold. -/
  | relayAddressLength (length : Nat)
  /-- The address of the mobile station is always left empty. -/
  | mobileAddressPresent
  /-- The address of the service centre must be given. -/
  | centreAddressMissing
  /-- Two decimal digits whose value lies outside the part's range. -/
  | clockRange (part : ClockPart) (value : Int)
  /-- An octet that is not two decimal digits. -/
  | clockDigits (part : ClockPart) (octet : UInt8)
  /-- A period of hours, minutes and seconds outside `99:59:59`. -/
  | period (hours minutes seconds : UInt8)
  /-- The functionality indicator announces an extension. -/
  | functionalityExtended
  /-- An enhanced validity format that is reserved. -/
  | reservedFormat (format : UInt8)
  /-- An information element's value does not fit its length octet. -/
  | elementTooLong
  /-- The elements together do not fit the header's length octet. -/
  | headerTooLong
  /-- The header alone is longer than the whole field may be. -/
  | headerOverLimit (octets limit : Nat)
  /-- The announced length is longer than the field may be. -/
  | userDataOverLimit (length limit : Nat)
  /-- The header is longer than the user data that holds it. -/
  | headerOverUserData
  /-- Two-octet text with a lone octet. -/
  | oddOctets
  /-- The parameter indicator announces an extension. -/
  | parametersExtended
  /-- A failure cause below `0x80`. -/
  | failureCause (cause : UInt8)
  /-- Another element where relay user data may stand. -/
  | relayElement (element : UInt8)
  /-- A transfer message that no report of this direction is. -/
  | reportMismatch (kind : String)
  /-- A report where a message was to be carried. -/
  | reportAsData (kind : String)
  /-- A relay cause element of no known shape. -/
  | relayCauseLength (length : Nat)
  /-- A relay cause that does not fit seven bits. -/
  | relayCauseRange (cause : UInt8)
  /-- Control user data longer than a message may carry. -/
  | controlUserDataTooLong (octets : Nat)
  /-- A transaction value that does not fit three bits. -/
  | transactionValue (value : UInt8)
  /-- A value that does not fit the length octet in front of it. -/
  | lengthOctet (field : String) (octets : Nat)
  deriving DecidableEq, Repr

namespace FieldFault

/-- The field that the fault lies in. -/
def field : FieldFault → String
  | .bitOffset _ => "bit_offset"
  | .textTypeOfNumber | .textTooLong _ | .digitsAlphanumeric | .digitsTooLong _
  | .addressLength _ => "address"
  | .relayAddressText | .relayDigitsTooLong _ | .relayAddressLength _ | .mobileAddressPresent
  | .centreAddressMissing => "rp_address"
  | .clockRange _ _ | .clockDigits _ _ => "timestamp"
  | .period _ _ _ | .functionalityExtended | .reservedFormat _ => "validity_period"
  | .elementTooLong | .headerTooLong | .headerOverLimit _ _ => "user_data_header"
  | .userDataOverLimit _ _ | .headerOverUserData | .oddOctets => "user_data"
  | .parametersExtended => "parameter_indicator"
  | .failureCause _ => "failure_cause"
  | .relayElement _ | .reportMismatch _ | .reportAsData _ => "rp_user_data"
  | .relayCauseLength _ | .relayCauseRange _ => "rp_cause"
  | .controlUserDataTooLong _ => "cp_user_data"
  | .transactionValue _ => "transaction_id"
  | .lengthOctet field _ => field

/-- What is said about the field. -/
def reason : FieldFault → String
  | .bitOffset offset => s!"{offset} is outside 0..7"
  | .textTypeOfNumber => "alphanumeric value requires alphanumeric TON and unknown NPI"
  | .textTooLong units => s!"{units} units do not fit in 12 octets"
  | .digitsAlphanumeric => "digit value cannot use alphanumeric TON"
  | .digitsTooLong digits => s!"{digits} digits do not fit in 12 octets"
  | .addressLength length => s!"length {length} semi-octets exceeds 12 octets"
  | .relayAddressText => "relay addresses carry digits only"
  | .relayDigitsTooLong digits => s!"{digits} digits exceeds 20"
  | .relayAddressLength length => s!"length {length} exceeds 11"
  | .mobileAddressPresent => "mobile station address must be empty"
  | .centreAddressMissing => "service centre address missing"
  | .clockRange part value => s!"{part.label} out of range: {value}"
  | .clockDigits part octet => s!"{part.label} out of range: {Numeral.octet octet}"
  | .period hours minutes seconds => s!"{hours}:{minutes}:{seconds} is not a valid period"
  | .functionalityExtended => "extended functionality indicator is not supported"
  | .reservedFormat format => s!"reserved enhanced format {format}"
  | .elementTooLong => "element value too long"
  | .headerTooLong => "header too long"
  | .headerOverLimit octets limit => s!"{octets} octets exceeds {limit}"
  | .userDataOverLimit length limit => s!"length {length} exceeds {limit} octets"
  | .headerOverUserData => "header longer than user data"
  | .oddOctets => "odd UCS2 octet count"
  | .parametersExtended => "extended parameter indicator is not supported"
  | .failureCause cause => s!"{Numeral.octet cause} is below the defined range"
  | .relayElement element => s!"unexpected element {Numeral.octet element}"
  | .reportMismatch kind => s!"{kind} cannot travel in this message"
  | .reportAsData kind => s!"{kind} cannot travel in RP-DATA"
  | .relayCauseLength length => s!"length {length} is not 1 or 2"
  | .relayCauseRange cause => s!"{cause} exceeds 127"
  | .controlUserDataTooLong octets => s!"{octets} octets exceeds 248"
  | .transactionValue value => s!"{value} exceeds 7"
  | .lengthOctet _ octets => s!"{octets} octets exceeds 255"

end FieldFault

/-- Why a message could not be read or written. -/
inductive Fault where
  /-- The octets end inside the message. -/
  | incomplete
  /-- The type is a known one, but not that of the message asked for. -/
  | unexpectedType (layer : Layer) (expected actual : UInt8)
  /-- No message has this type. -/
  | unknownType (layer : Layer) (value : UInt8)
  /-- The octets belong to another protocol. -/
  | otherProtocol (discriminator : UInt8)
  /-- Octets are left over after the message. -/
  | trailing (count : Nat)
  /-- The alphabet has no code for the character. -/
  | unmappable (char : Char)
  /-- The character is no digit of an address. -/
  | notDigit (char : Char)
  /-- The fill nibble stands where a digit has to. -/
  | misplacedFill
  /-- The octet names no data coding scheme. -/
  | reservedCoding (octet : UInt8)
  /-- A field holds what it may not hold. -/
  | field (fault : FieldFault)
  deriving DecidableEq, Repr

/-- The sentence that reports a fault. -/
def Fault.message : Fault → String
  | .incomplete => "Incomplete PDU: need more data"
  | .unexpectedType layer expected actual =>
    s!"Unexpected {layer.label} message type: expected {Numeral.octet expected}, " ++
      s!"got {Numeral.octet actual}"
  | .unknownType layer value => s!"Unknown {layer.label} message type: {Numeral.octet value}"
  | .otherProtocol discriminator =>
    "Invalid protocol discriminator: 0x" ++ Numeral.hex discriminator.toNat
  | .trailing count => s!"{count} trailing bytes after PDU"
  | .unmappable char =>
    s!"Character {Quoted.char char} cannot be represented in the selected alphabet"
  | .notDigit char => s!"Invalid TBCD digit: {Quoted.char char}"
  | .misplacedFill => "Fill nibble before end of TBCD string"
  | .reservedCoding octet => s!"Reserved data coding scheme: {Numeral.octet octet}"
  | .field fault => s!"Field \x27{fault.field}\x27 validation failed: {fault.reason}"

end ShortMessage
