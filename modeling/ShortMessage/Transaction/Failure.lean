import ShortMessage.Control.Cause
import ShortMessage.Relay.Cause
import ShortMessage.Transfer.Message

/-!
# How a transaction fails

A failure with a cause of the relay or the control layer can be told to the other side; the others
stay on this side.  The application and the transports fail in the same ways.
-/

namespace ShortMessage

/-- Why a transaction failed. -/
inductive Failure where
  /-- The relay layer reports an error. -/
  | relay (cause : Relay.Cause) (diagnostic : Option UInt8) (report : Option Transfer.Message)
  /-- The control layer reports an error. -/
  | control (cause : Control.Cause)
  /-- A message cannot be read or written. -/
  | codec (fault : Fault)
  /-- A message of the wrong kind was handed in. -/
  | unexpected (expected actual : String)
  /-- The transport gave up for a reason of its own. -/
  | transport (text : String)
  deriving DecidableEq, Repr

namespace Failure

/-- An error of the relay layer that carries nothing else. -/
def relayCause (cause : Relay.Cause) : Failure := .relay cause none none

/-- The cause of the control layer, if there is one. -/
def controlCause? : Failure → Option Control.Cause
  | .control cause => some cause
  | _ => none

/-- The sentence that reports a failure. -/
def message : Failure → String
  | .relay cause _ _ => s!"Relay error: {cause.display}"
  | .control cause => s!"Connection error: {cause.display}"
  | .codec fault => s!"Codec error: {fault.message}"
  | .unexpected expected actual => s!"Unexpected PDU: expected {expected}, got {actual}"
  | .transport text => s!"Transport error: {text}"

end Failure

end ShortMessage
