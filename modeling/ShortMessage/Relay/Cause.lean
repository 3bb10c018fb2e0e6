/-!
# Causes of the relay layer

Why a relay entity could not do what it was asked.  Values without a meaning are kept as they are.
-/

namespace ShortMessage.Relay

/-- A cause of the relay layer. -/
inductive Cause where
  | unassignedNumber
  | operatorDeterminedBarring
  | callBarred
  | transferRejected
  | memoryCapacityExceeded
  | destinationOutOfOrder
  | unidentifiedSubscriber
  | facilityRejected
  | unknownSubscriber
  | networkOutOfOrder
  | temporaryFailure
  | congestion
  | resourcesUnavailable
  | facilityNotSubscribed
  | facilityNotImplemented
  | invalidReference
  | semanticallyIncorrect
  | invalidMandatoryInformation
  | messageTypeNonExistent
  | messageNotCompatible
  | elementNonExistent
  | protocolError
  | interworking
  | other (value : UInt8)
  deriving DecidableEq, Repr

namespace Cause

/-- The octet of a cause. -/
def code : Cause → UInt8
  | .unassignedNumber => 1
  | .operatorDeterminedBarring => 8
  | .callBarred => 10
  | .transferRejected => 21
  | .memoryCapacityExceeded => 22
  | .destinationOutOfOrder => 27
  | .unidentifiedSubscriber => 28
  | .facilityRejected => 29
  | .unknownSubscriber => 30
  | .networkOutOfOrder => 38
  | .temporaryFailure => 41
  | .congestion => 42
  | .resourcesUnavailable => 47
  | .facilityNotSubscribed => 50
  | .facilityNotImplemented => 69
  | .invalidReference => 81
  | .semanticallyIncorrect => 95
  | .invalidMandatoryInformation => 96
  | .messageTypeNonExistent => 97
  | .messageNotCompatible => 98
  | .elementNonExistent => 99
  | .protocolError => 111
  | .interworking => 127
  | .other value => value

/-- The cause with this octet. -/
def ofCode (b : UInt8) : Cause :=
  match b.toNat with
  | 1 => .unassignedNumber
  | 8 => .operatorDeterminedBarring
  | 10 => .callBarred
  | 21 => .transferRejected
  | 22 => .memoryCapacityExceeded
  | 27 => .destinationOutOfOrder
  | 28 => .unidentifiedSubscriber
  | 29 => .facilityRejected
  | 30 => .unknownSubscriber
  | 38 => .networkOutOfOrder
  | 41 => .temporaryFailure
  | 42 => .congestion
  | 47 => .resourcesUnavailable
  | 50 => .facilityNotSubscribed
  | 69 => .facilityNotImplemented
  | 81 => .invalidReference
  | 95 => .semanticallyIncorrect
  | 96 => .invalidMandatoryInformation
  | 97 => .messageTypeNonExistent
  | 98 => .messageNotCompatible
  | 99 => .elementNonExistent
  | 111 => .protocolError
  | 127 => .interworking
  | _ => .other b

/-- The name of a cause. -/
def label : Cause → String
  | .unassignedNumber => "UnassignedNumber"
  | .operatorDeterminedBarring => "OperatorDeterminedBarring"
  | .callBarred => "CallBarred"
  | .transferRejected => "ShortMessageTransferRejected"
  | .memoryCapacityExceeded => "MemoryCapacityExceeded"
  | .destinationOutOfOrder => "DestinationOutOfOrder"
  | .unidentifiedSubscriber => "UnidentifiedSubscriber"
  | .facilityRejected => "FacilityRejected"
  | .unknownSubscriber => "UnknownSubscriber"
  | .networkOutOfOrder => "NetworkOutOfOrder"
  | .temporaryFailure => "TemporaryFailure"
  | .congestion => "Congestion"
  | .resourcesUnavailable => "ResourcesUnavailable"
  | .facilityNotSubscribed => "FacilityNotSubscribed"
  | .facilityNotImplemented => "FacilityNotImplemented"
  | .invalidReference => "InvalidReference"
  | .semanticallyIncorrect => "SemanticallyIncorrectMessage"
  | .invalidMandatoryInformation => "InvalidMandatoryInformation"
  | .messageTypeNonExistent => "MessageTypeNonExistent"
  | .messageNotCompatible => "MessageNotCompatible"
  | .elementNonExistent => "InformationElementNonExistent"
  | .protocolError => "ProtocolError"
  | .interworking => "Interworking"
  | .other value => s!"Other({value})"

/-- A cause in a sentence. -/
def display (c : Cause) : String := s!"RP cause {c.code}"

end Cause

end ShortMessage.Relay
