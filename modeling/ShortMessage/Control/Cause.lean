/-!
# Causes of the control layer

Why a control entity ended a transaction.  Values without a meaning are kept as they are.
-/

namespace ShortMessage.Control

/-- A cause of the control layer. -/
inductive Cause where
  | networkFailure
  | congestion
  | invalidTransactionId
  | semanticallyIncorrect
  | invalidMandatoryInformation
  | messageTypeNonExistent
  | messageNotCompatible
  | elementNonExistent
  | protocolError
  | other (value : UInt8)
  deriving DecidableEq, Repr

namespace Cause

/-- The octet of a cause. -/
def code : Cause → UInt8
  | .networkFailure => 17
  | .congestion => 22
  | .invalidTransactionId => 81
  | .semanticallyIncorrect => 95
  | .invalidMandatoryInformation => 96
  | .messageTypeNonExistent => 97
  | .messageNotCompatible => 98
  | .elementNonExistent => 99
  | .protocolError => 111
  | .other value => value

/-- The cause with this octet. -/
def ofCode (b : UInt8) : Cause :=
  match b.toNat with
  | 17 => .networkFailure
  | 22 => .congestion
  | 81 => .invalidTransactionId
  | 95 => .semanticallyIncorrect
  | 96 => .invalidMandatoryInformation
  | 97 => .messageTypeNonExistent
  | 98 => .messageNotCompatible
  | 99 => .elementNonExistent
  | 111 => .protocolError
  | _ => .other b

/-- The name of a cause. -/
def label : Cause → String
  | .networkFailure => "NetworkFailure"
  | .congestion => "Congestion"
  | .invalidTransactionId => "InvalidTransactionId"
  | .semanticallyIncorrect => "SemanticallyIncorrectMessage"
  | .invalidMandatoryInformation => "InvalidMandatoryInformation"
  | .messageTypeNonExistent => "MessageTypeNonExistent"
  | .messageNotCompatible => "MessageNotCompatible"
  | .elementNonExistent => "InformationElementNonExistent"
  | .protocolError => "ProtocolError"
  | .other value => s!"Other({value})"

/-- A cause in a sentence. -/
def display (c : Cause) : String := s!"CP cause {c.code}"

end Cause

end ShortMessage.Control
