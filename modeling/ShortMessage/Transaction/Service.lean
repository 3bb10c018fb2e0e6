import ShortMessage.Relay.Message
import ShortMessage.Transaction.Failure

/-!
# Answering a request

Both the relay and the control entity hand requests to the application and turn its outcome into an
answer.  An acknowledgement carries the report of the application or, for a message, a plain one;
an error carries the cause that the application gives.  Whatever cannot be said in an answer of the
relay layer is a failure of the control layer.
-/

namespace ShortMessage.Service

/-- What is asked of the application. -/
inductive Call where
  /-- A message has come in. -/
  | message (m : Transfer.Message)
  /-- The other side has memory again. -/
  | memoryAvailable
  deriving DecidableEq, Repr

/-- What the application says: it has a report, or nothing special to say, or it failed. -/
abbrev Outcome := Except Failure (Option Transfer.Message)

/-- What a request asks of the application. -/
def call? : Relay.Message → Option Call
  | .data _ _ m => some (.message m)
  | .memoryAvailable _ => some .memoryAvailable
  | .ack _ _ _ | .error _ _ _ _ _ => none

/-- The report on a message about which the application has nothing special to say. -/
def plainReport (m : Transfer.Message) (now : Timestamp) : Transfer.Message :=
  match m.kind with
  | .submit | .command => .submitReport { timestamp := now }
  | _ => .deliverReport {}

/-- A report that can travel in an answer; another one is an error of the protocol. -/
def checkReport (direction : Direction) (report : Transfer.Message) : Except Failure Unit :=
  if report.isReportTo direction then .ok () else .error (.control .protocolError)

/-- The error that tells of a failure. -/
def errorFor (direction : Direction) (reference : UInt8) : Failure → Except Failure Relay.Message
  | .relay cause diagnostic report => do
    if let some report := report then checkReport direction report
    return .error direction reference cause diagnostic report
  | .control cause => .error (.control cause)
  | _ => .error (.control .protocolError)

/-- The answer to a request, given what the application says and the current time. -/
def answer (request : Relay.Message) (outcome : Outcome) (now : Timestamp) :
    Except Failure Relay.Message :=
  let direction := request.direction.reverse
  let reference := request.reference
  match outcome with
  | .error failure => errorFor direction reference failure
  | .ok report =>
    match request with
    | .data _ _ m => do
      let report := report.getD (plainReport m now)
      checkReport direction report
      return .ack direction reference (some report)
    | _ => .ok (.ack direction reference none)

/-- What whoever asked for an answer to be sent learns of it. -/
def result : Relay.Message → Except Failure Unit
  | .error _ _ cause diagnostic report => .error (.relay cause diagnostic report)
  | _ => .ok ()

end ShortMessage.Service
