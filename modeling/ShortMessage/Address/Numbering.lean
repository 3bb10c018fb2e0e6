/-!
# What kind of number an address is

The octet in front of an address value says in three bits what type of number it is and in four
bits which numbering plan it belongs to.
-/

namespace ShortMessage

/-- The type of number of an address. -/
inductive TypeOfNumber where
  | unknown
  | international
  | national
  | networkSpecific
  | subscriber
  | alphanumeric
  | abbreviated
  | reserved
  deriving DecidableEq, Repr

namespace TypeOfNumber

/-- The three bits of a type of number. -/
def code : TypeOfNumber → UInt8
  | .unknown => 0
  | .international => 1
  | .national => 2
  | .networkSpecific => 3
  | .subscriber => 4
  | .alphanumeric => 5
  | .abbreviated => 6
  | .reserved => 7

/-- The type with these bits, if there are only three of them. -/
def ofCode? (b : UInt8) : Option TypeOfNumber :=
  match b.toNat with
  | 0 => some .unknown
  | 1 => some .international
  | 2 => some .national
  | 3 => some .networkSpecific
  | 4 => some .subscriber
  | 5 => some .alphanumeric
  | 6 => some .abbreviated
  | 7 => some .reserved
  | _ => none

/-- The type in bits 4 to 6 of the octet in front of an address value. -/
def ofAddressOctet (b : UInt8) : TypeOfNumber := (ofCode? (b >>> 4 &&& 0x07)).getD .reserved

/-- The name of a type of number. -/
def label : TypeOfNumber → String
  | .unknown => "Unknown"
  | .international => "International"
  | .national => "National"
  | .networkSpecific => "NetworkSpecific"
  | .subscriber => "SubscriberNumber"
  | .alphanumeric => "Alphanumeric"
  | .abbreviated => "Abbreviated"
  | .reserved => "Reserved"

end TypeOfNumber

/-- The numbering plan of an address; values without a meaning are kept as they are. -/
inductive NumberingPlan where
  | unknown
  | isdn
  | data
  | telex
  | serviceCentreSpecific
  | serviceCentreSpecificSecond
  | nationalPlan
  | privatePlan
  | ermes
  | reserved (value : UInt8)
  deriving DecidableEq, Repr

namespace NumberingPlan

/-- The value of a numbering plan; only its low four bits travel. -/
def code : NumberingPlan → UInt8
  | .unknown => 0
  | .isdn => 1
  | .data => 3
  | .telex => 4
  | .serviceCentreSpecific => 5
  | .serviceCentreSpecificSecond => 6
  | .nationalPlan => 8
  | .privatePlan => 9
  | .ermes => 10
  | .reserved value => value

/-- The numbering plan with this value. -/
def ofCode (b : UInt8) : NumberingPlan :=
  match b.toNat with
  | 0 => .unknown
  | 1 => .isdn
  | 3 => .data
  | 4 => .telex
  | 5 => .serviceCentreSpecific
  | 6 => .serviceCentreSpecificSecond
  | 8 => .nationalPlan
  | 9 => .privatePlan
  | 10 => .ermes
  | _ => .reserved b

/-- The plan in the low four bits of the octet in front of an address value. -/
def ofAddressOctet (b : UInt8) : NumberingPlan := ofCode (b &&& 0x0F)

/-- The name of a numbering plan. -/
def label : NumberingPlan → String
  | .unknown => "Unknown"
  | .isdn => "Isdn"
  | .data => "Data"
  | .telex => "Telex"
  | .serviceCentreSpecific => "ServiceCentreSpecific"
  | .serviceCentreSpecificSecond => "ServiceCentreSpecific2"
  | .nationalPlan => "National"
  | .privatePlan => "Private"
  | .ermes => "Ermes"
  | .reserved value => s!"Reserved({value})"

end NumberingPlan

end ShortMessage
