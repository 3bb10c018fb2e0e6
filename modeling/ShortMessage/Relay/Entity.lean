import ShortMessage.Transaction.Process
import ShortMessage.Transaction.Table

/-!
# The relay entity

Hands messages to the other side and waits for the answers.  Every request takes a reference that
no other running request has.  The answer must come under that reference and the other way; the
entity stops waiting for it after a time.  Requests of the other side go to the application, and
what it says goes back as the answer.

`Entity` is the whole state, with one entry for each running task.  A request goes through
`Requesting`, a message from the other side through `Indicating`; `Entity.step?` says what each
move does.
-/

namespace ShortMessage.Relay

open Transaction (TaskId Table Lease Move Event Undelivered)

/-- References of a message. -/
def referenceCount : Nat := 256

/-- How a relay entity is set up. -/
structure Config where
  /-- Milliseconds that a request waits for its answer. -/
  answerTime : Nat := 35000
  /-- The first reference that is tried. -/
  initialReference : UInt8 := 0
  /-- The address of the service centre. -/
  centre : Address := ⟨.international, .isdn, .digits []⟩
  deriving DecidableEq, Repr

/-- What is to be asked of the other side. -/
inductive Request where
  /-- To take a message. -/
  | transfer (message : Transfer.Message)
  /-- To know that this side has memory again. -/
  | notice
  deriving DecidableEq, Repr

/-- The way in which the answer to a request travels. -/
def Request.answerDirection : Request → Direction
  | .transfer message => message.direction.reverse
  | .notice => .toMobile

/-- The relay message for a request. -/
def Request.message (r : Request) (centre : Address) (reference : UInt8) : Message :=
  match r with
  | .transfer message => .data reference centre message
  | .notice => .memoryAvailable reference

/-- What a request comes to: the report in the acknowledgement, or a failure. -/
abbrev Outcome := Except Failure (Option Transfer.Message)

/-- What an answer means for a request; nothing can be waited for any longer without one. -/
def Request.outcome (r : Request) : Option Message → Outcome
  | some (.ack _ _ report) =>
    match r with
    | .transfer _ => .ok report
    | .notice => .ok none
  | some (.error _ _ cause diagnostic report) => .error (.relay cause diagnostic report)
  | _ => .error (.relayCause .resourcesUnavailable)

/-- What a failure of the transport means for a request. -/
def sendFailure : Failure → Failure
  | .relay cause diagnostic report => .relay cause diagnostic report
  | .control _ => .relayCause .resourcesUnavailable
  | _ => .relayCause .protocolError

/-- Where a request stands. -/
inductive Requesting where
  /-- It has no reference yet. -/
  | opening
  /-- It is with the transport. -/
  | transmitting (lease : Lease)
  /-- It waits for its answer. -/
  | awaiting (lease : Lease) (deadline : Nat)
  /-- It has waited long enough. -/
  | expired (lease : Lease)
  /-- It knows its outcome and still has its reference. -/
  | closing (lease : Lease) (outcome : Outcome)
  deriving Repr

/-- Where a message from the other side stands. -/
inductive Indicating where
  /-- It has just come in. -/
  | arrived
  /-- It is with the application. -/
  | handling
  /-- Its answer is with the transport. -/
  | replying (answer : Message)
  deriving DecidableEq, Repr

/-- A running task. -/
inductive Task where
  | requesting (request : Request) (phase : Requesting)
  | indicating (message : Message) (phase : Indicating)
  deriving Repr

/-- What a task ends with. -/
inductive Result where
  | requested (outcome : Outcome)
  | indicated (outcome : Except Failure Unit)
  deriving Repr

/-- What can be asked of a relay entity. -/
inductive Input where
  | request (r : Request)
  /-- To take a message from the other side. -/
  | indication (m : Message)
  deriving DecidableEq, Repr

/-- A relay entity with everything that goes on in it. -/
structure Entity where
  config : Config
  clock : Nat := 0
  /-- The references, each with the way in which its answer travels. -/
  references : Table Message Direction
  tasks : List (TaskId × Task) := []
  /-- Tasks ever started. -/
  started : Nat := 0
  deriving Repr

namespace Entity

/-- An entity without tasks. -/
def ofConfig (config : Config) : Entity :=
  { config, references := Table.idle referenceCount config.initialReference.toNat }

/-- References that no request has. -/
def freeReferences (e : Entity) : Nat := e.references.idleCount

/-- The task with this number. -/
def task? (e : Entity) (id : TaskId) : Option Task := e.tasks.lookup id

/-- Puts a task into another phase. -/
def put (e : Entity) (id : TaskId) (task : Task) : Entity :=
  { e with tasks := e.tasks.map fun t => if t.1 = id then (id, task) else t }

/-- Takes a task off the list. -/
def remove (e : Entity) (id : TaskId) : Entity :=
  { e with tasks := e.tasks.filter (·.1 ≠ id) }

/-- Adds a task. -/
def spawn (e : Entity) (task : Task) : Entity :=
  { e with tasks := e.tasks ++ [(e.started, task)], started := e.started + 1 }

/-- Ends a task. -/
def finish (e : Entity) (id : TaskId) (result : Result) :
    Option (Entity × List (Event Message Result)) :=
  some (e.remove id, [.returned id result])

/-- Puts a task into another phase, unseen by others. -/
def become (e : Entity) (id : TaskId) (task : Task) :
    Option (Entity × List (Event Message Result)) :=
  some (e.put id task, [])

/-! ## Requests -/

/-- Takes a reference and hands the request to the transport. -/
def openRequest (e : Entity) (id : TaskId) (r : Request) :
    Option (Entity × List (Event Message Result)) :=
  match r with
  | .transfer m =>
    if m.isReport then
      e.finish id (.requested (.error (.unexpected
        "SMS-SUBMIT, SMS-COMMAND, SMS-DELIVER or SMS-STATUS-REPORT" m.label)))
    else takeReference
  | .notice => takeReference
where
  /-- Takes a reference if there is one. -/
  takeReference : Option (Entity × List (Event Message Result)) :=
    match e.references.lease? r.answerDirection with
    | none => e.finish id (.requested (.error (.relayCause .congestion)))
    | some (lease, references) =>
      some ({ e with references }.put id (.requesting r (.transmitting lease)),
        [.emitted id (r.message e.config.centre (UInt8.ofNat lease.index))])

/-- The next step of a request that need not wait. -/
def runRequest (e : Entity) (id : TaskId) (r : Request) :
    Requesting → Option (Entity × List (Event Message Result))
  | .opening => e.openRequest id r
  | .transmitting _ => none
  | .awaiting lease _ =>
    match e.references.take? lease with
    | none => none
    | some (answer, references) =>
      { e with references }.become id (.requesting r (.closing lease (r.outcome (some answer))))
  | .expired lease =>
    let (late, references) := e.references.retire lease
    { e with references }.become id (.requesting r (.closing lease (r.outcome late)))
  | .closing lease outcome =>
    { e with references := e.references.drop lease }.finish id (.requested outcome)

/-! ## Messages from the other side -/

/-- Gives an answer to the request that waits for it. -/
def deliverAnswer (e : Entity) (id : TaskId) (m : Message) :
    Option (Entity × List (Event Message Result)) :=
  match e.references.postIf m.reference.toNat m fun direction m => m.direction = direction with
  | .ok references => { e with references }.finish id (.indicated (.ok ()))
  | .error (.refused _) => e.finish id (.indicated (.error (.relayCause .messageNotCompatible)))
  | .error (.noOwner _) => e.finish id (.indicated (.error (.relayCause .invalidReference)))

/-- The next step of a message from the other side that need not wait. -/
def runIndication (e : Entity) (id : TaskId) (m : Message) :
    Indicating → Option (Entity × List (Event Message Result))
  | .arrived =>
    match Service.call? m with
    | none => e.deliverAnswer id m
    | some call => some (e.put id (.indicating m .handling), [.called id call])
  | _ => none

/-! ## What each move does -/

/-- A task that need not wait takes a step. -/
def run (e : Entity) (id : TaskId) : Option (Entity × List (Event Message Result)) :=
  match e.task? id with
  | some (.requesting r phase) => e.runRequest id r phase
  | some (.indicating m phase) => e.runIndication id m phase
  | none => none

/-- The transport is done. -/
def sent (e : Entity) (id : TaskId) (result : Except Failure Unit) :
    Option (Entity × List (Event Message Result)) :=
  match e.task? id, result with
  | some (.requesting r (.transmitting lease)), .ok () =>
    e.become id (.requesting r (.awaiting lease (e.clock + e.config.answerTime)))
  | some (.requesting r (.transmitting lease)), .error failure =>
    e.become id (.requesting r (.closing lease (.error (sendFailure failure))))
  | some (.indicating _ (.replying answer)), .ok () =>
    e.finish id (.indicated (Service.result answer))
  | some (.indicating _ (.replying _)), .error failure => e.finish id (.indicated (.error failure))
  | _, _ => none

/-- The application is done. -/
def answered (e : Entity) (id : TaskId) (outcome : Service.Outcome) (now : Timestamp) :
    Option (Entity × List (Event Message Result)) :=
  match e.task? id with
  | some (.indicating m .handling) =>
    match Service.answer m outcome now with
    | .ok answer => some (e.put id (.indicating m (.replying answer)), [.emitted id answer])
    | .error failure => e.finish id (.indicated (.error failure))
  | _ => none

/-- The time at which a task stops waiting. -/
def deadline? (e : Entity) (id : TaskId) : Option Nat :=
  match e.task? id with
  | some (.requesting _ (.awaiting _ deadline)) => some deadline
  | _ => none

/-- A request has waited long enough and no answer is there. -/
def expire (e : Entity) (id : TaskId) : Option (Entity × List (Event Message Result)) :=
  match e.task? id with
  | some (.requesting r (.awaiting lease deadline)) =>
    if deadline ≤ e.clock ∧ e.references.pending lease = [] then
      e.become id (.requesting r (.expired lease))
    else none
  | _ => none

/-- The lease of a task. -/
def leaseOf? : Task → Option Lease
  | .requesting _ .opening => none
  | .requesting _ (.transmitting lease) | .requesting _ (.awaiting lease _)
  | .requesting _ (.expired lease) | .requesting _ (.closing lease _) => some lease
  | .indicating _ _ => none

/-- A task is given up. -/
def abort (e : Entity) (id : TaskId) : Option (Entity × List (Event Message Result)) :=
  match e.task? id with
  | none => none
  | some task =>
    let references := match leaseOf? task with
      | some lease => e.references.drop lease
      | none => e.references
    some ({ e with references }.remove id, [])

/-- The task for an input. -/
def taskFor : Input → Task
  | .request r => .requesting r .opening
  | .indication m => .indicating m .arrived

/-- What a move does and what others see of it; nothing if it is not possible now. -/
def step? (e : Entity) : Move Input → Option (Entity × List (Event Message Result))
  | .start input => some (e.spawn (taskFor input), [])
  | .run id => e.run id
  | .sent id result => e.sent id result
  | .answered id outcome now => e.answered id outcome now
  | .expire id => e.expire id
  | .abort id => e.abort id
  | .elapse duration => some ({ e with clock := e.clock + duration }, [])

end Entity

end ShortMessage.Relay
