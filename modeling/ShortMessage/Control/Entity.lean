import ShortMessage.Control.Message
import ShortMessage.Transaction.Process
import ShortMessage.Transaction.Table

/-!
# The control entity

Carries relay messages over a signalling connection, each on a transaction of its own.  Data is
repeated until the other side acknowledges it, a few times at most.  On a transaction that this
side opened, the answer of the other side to a request is waited for and acknowledged; on one that
the other side opened, the application is asked and its answer is sent the same way.

`Entity` is the whole state, with one entry for each running task.  A message to send goes through
`Sending`, a request of the other side through `Serving`, and what comes from the connection
through `Receiving`; `Entity.step?` says what each move does.
-/

namespace ShortMessage.Control

open Transaction (TaskId Table Lease Move Event)

/-- Transactions that each side can have open. -/
def transactionCount : Nat := 8

/-- How a control entity is set up. -/
structure Config where
  /-- Milliseconds that data waits for its acknowledgement. -/
  ackTime : Nat := 20000
  /-- How often data is repeated. -/
  maxRetransmissions : Nat := 1
  /-- Milliseconds that an acknowledged request waits for its answer. -/
  answerTime : Nat := 35000
  /-- The first transaction value that is tried. -/
  initialTransaction : UInt8 := 0
  deriving DecidableEq, Repr

/-! ## Getting data acknowledged -/

/-- Where data stands on its way to an acknowledgement. -/
inductive Handover where
  /-- It is with the transport, after so many repetitions. -/
  | transmitting (repeated : Nat)
  /-- It waits for its acknowledgement. -/
  | awaiting (repeated : Nat) (deadline : Nat)
  deriving DecidableEq, Repr

/-- What a message means for data that waits for its acknowledgement. -/
inductive Reaction where
  /-- The data has arrived. -/
  | acknowledged
  /-- The data has arrived, and this payload came back on its transaction. -/
  | answered (payload : Octets)
  /-- The other side ended the transaction. -/
  | ended (cause : Cause)
  deriving DecidableEq, Repr

/-- Data of the other side stands for an acknowledgement too. -/
def Message.reaction : Message → Reaction
  | .ack _ => .acknowledged
  | .data _ payload => .answered payload
  | .error _ cause => .ended cause

/-! ## Where tasks stand -/

/-- What sending comes to: the answer if the message asks for one, or a failure. -/
abbrev Outcome := Except Failure (Option Relay.Message)

/-- A message to send, and the transaction it has. -/
structure Session where
  message : Relay.Message
  lease : Lease
  /-- The data that carries the message. -/
  data : Message
  deriving DecidableEq, Repr

/-- Where a message to send stands. -/
inductive Sending where
  /-- It has no transaction yet. -/
  | opening (message : Relay.Message)
  /-- It is on its way. -/
  | delivering (session : Session) (handover : Handover)
  /-- It has arrived and waits for its answer. -/
  | awaitingAnswer (session : Session) (deadline : Nat)
  /-- It has waited for its answer long enough. -/
  | expired (session : Session)
  /-- The last word on the transaction is with the transport. -/
  | concluding (lease : Lease) (outcome : Outcome)
  /-- It knows its outcome and still has its transaction. -/
  | closing (lease : Lease) (outcome : Outcome)
  deriving Repr

/-- A request of the other side, and the transaction it came on. -/
structure Service where
  request : Relay.Message
  lease : Lease
  /-- The transaction as this side names it in its messages. -/
  transaction : TransactionId
  deriving DecidableEq, Repr

/-- Where a request of the other side stands. -/
inductive Serving where
  /-- It has been acknowledged. -/
  | accepted (service : Service)
  /-- It is with the application. -/
  | handling (service : Service)
  /-- Its answer is on its way. -/
  | delivering (lease : Lease) (data : Message) (handover : Handover)
  /-- The error that stands for its answer is with the transport. -/
  | refusing (lease : Lease)
  /-- It is done and still has its transaction. -/
  | closing (lease : Lease)
  deriving Repr

/-- Where something from the connection stands. -/
inductive Receiving where
  /-- Octets have come in. -/
  | octets (s : Octets)
  /-- A message has come in. -/
  | arrived (m : Message)
  /-- A request has come in on a transaction that was idle. -/
  | opening (transaction : TransactionId) (request : Relay.Message)
  /-- The acknowledgement of a request is with the transport. -/
  | accepting (service : Service)
  /-- A request could not be acknowledged. -/
  | withdrawing (lease : Lease) (failure : Failure)
  /-- A message that ends the matter is with the transport. -/
  | replying (outcome : Except Failure Unit)
  deriving Repr

/-- A running task. -/
inductive Task where
  | sending (s : Sending)
  | serving (s : Serving)
  | receiving (r : Receiving)
  deriving Repr

/-- What a task ends with. -/
inductive Result where
  | sent (outcome : Outcome)
  | served
  | received (outcome : Except Failure Unit)
  deriving Repr

/-- What can be asked of a control entity. -/
inductive Input where
  | send (m : Relay.Message)
  | receive (m : Message)
  | receiveOctets (s : Octets)
  deriving DecidableEq, Repr

/-- A control entity with everything that goes on in it. -/
structure Entity where
  config : Config
  clock : Nat := 0
  /-- The transactions that this side opened. -/
  outgoing : Table Message Unit
  /-- The transactions that the other side opened. -/
  incoming : Table Message Unit
  tasks : List (TaskId × Task) := []
  /-- Tasks ever started. -/
  started : Nat := 0
  deriving Repr

/-- An entity after a step, and what others see of the step. -/
abbrev Step := Option (Entity × List (Event Message Result))

/-! ## Answers of the other side -/

/-- The answer in a payload, or the cause for which it is refused.  It must be an answer, travel
opposite to the request and have its reference. -/
def judgeAnswer (request : Relay.Message) (payload : Octets) : Except Cause Relay.Message :=
  match Relay.Message.ofOctets payload with
  | .error (.unknownType _ _) => .error .messageTypeNonExistent
  | .error _ => .error .semanticallyIncorrect
  | .ok answer =>
    if answer.isRequest ∨ answer.direction ≠ request.direction.reverse then
      .error .messageNotCompatible
    else if answer.reference ≠ request.reference then .error .invalidTransactionId
    else .ok answer

/-- The request in a payload, or the cause for which it is refused. -/
def judgeRequest (payload : Octets) : Except Cause Relay.Message :=
  match Relay.Message.ofOctets payload with
  | .error (.unknownType _ _) => .error .messageNotCompatible
  | .error _ => .error .semanticallyIncorrect
  | .ok request => if request.isRequest then .ok request else .error .messageNotCompatible

namespace Entity

/-- An entity without tasks. -/
def ofConfig (config : Config) : Entity :=
  { config
    outgoing := Table.idle transactionCount config.initialTransaction.toNat
    incoming := Table.idle transactionCount 0 }

/-- Transactions that this side could open. -/
def freeOutgoing (e : Entity) : Nat := e.outgoing.idleCount

/-- Transactions that the other side could open. -/
def freeIncoming (e : Entity) : Nat := e.incoming.idleCount

/-- The task with this number. -/
def task? (e : Entity) (id : TaskId) : Option Task := e.tasks.lookup id

/-- Puts a task into another phase. -/
def put (e : Entity) (id : TaskId) (task : Task) : Entity :=
  { e with tasks := e.tasks.map fun t => if t.1 = id then (id, task) else t }

/-- Takes a task off the list. -/
def remove (e : Entity) (id : TaskId) : Entity :=
  { e with tasks := e.tasks.filter (·.1 ≠ id) }

/-- Adds a task. -/
def spawn (e : Entity) (task : Task) : Entity :=
  { e with tasks := e.tasks ++ [(e.started, task)], started := e.started + 1 }

/-- Ends a task. -/
def finish (e : Entity) (id : TaskId) (result : Result) : Step :=
  some (e.remove id, [.returned id result])

/-- Puts a task into another phase, unseen by others. -/
def become (e : Entity) (id : TaskId) (task : Task) : Step := some (e.put id task, [])

/-- Puts a task into a phase where it waits for the transport. -/
def emit (e : Entity) (id : TaskId) (m : Message) (task : Task) : Step :=
  some (e.put id task, [.emitted id m])

/-! ## Sending -/

/-- Takes a transaction and hands the message to the transport. -/
def openSession (e : Entity) (id : TaskId) (message : Relay.Message) : Step :=
  match e.outgoing.lease? () with
  | none => e.finish id (.sent (.error (.relayCause .congestion)))
  | some (lease, outgoing) =>
    match Message.carrying ⟨false, UInt8.ofNat lease.index⟩ message with
    | .ok data => { e with outgoing }.emit id data
        (.sending (.delivering ⟨message, lease, data⟩ (.transmitting 0)))
    | .error fault => { e with outgoing }.become id
        (.sending (.closing lease (.error (.codec fault))))

/-- Starts to wait for the answer. -/
def awaitAnswer (e : Entity) (id : TaskId) (s : Session) : Step :=
  e.become id (.sending (.awaitingAnswer s (e.clock + e.config.answerTime)))

/-- Says the last word on what came back as the answer. -/
def concludeAnswer (e : Entity) (id : TaskId) (s : Session) (payload : Octets) : Step :=
  match judgeAnswer s.message payload with
  | .ok answer => e.emit id (.ack s.data.transaction)
      (.sending (.concluding s.lease (.ok (some answer))))
  | .error cause => e.emit id (.error s.data.transaction cause)
      (.sending (.concluding s.lease (.error (.control cause))))

/-- Goes on with a message that came while data waited for its acknowledgement. -/
def acknowledge (e : Entity) (id : TaskId) (s : Session) (reaction : Reaction) : Step :=
  match reaction with
  | .ended cause => e.become id (.sending (.closing s.lease (.error (.control cause))))
  | .acknowledged =>
    if s.message.isRequest then e.awaitAnswer id s
    else e.become id (.sending (.closing s.lease (.ok none)))
  | .answered payload =>
    if s.message.isRequest then e.concludeAnswer id s payload
    else e.become id (.sending (.closing s.lease (.ok none)))

/-- Goes on with a message that came while the answer was waited for.  Another acknowledgement
starts the wait again. -/
def takeAnswer (e : Entity) (id : TaskId) (s : Session) (reaction : Reaction) : Step :=
  match reaction with
  | .ended cause => e.become id (.sending (.closing s.lease (.error (.control cause))))
  | .acknowledged => e.awaitAnswer id s
  | .answered payload => e.concludeAnswer id s payload

/-- The next step of sending that need not wait. -/
def runSending (e : Entity) (id : TaskId) : Sending → Step
  | .opening message => e.openSession id message
  | .delivering _ (.transmitting _) => none
  | .delivering s (.awaiting _ _) =>
    match e.outgoing.take? s.lease with
    | some (m, outgoing) => { e with outgoing }.acknowledge id s m.reaction
    | none => none
  | .awaitingAnswer s _ =>
    match e.outgoing.take? s.lease with
    | some (m, outgoing) => { e with outgoing }.takeAnswer id s m.reaction
    | none =>
      if e.outgoing.isReleased s.lease then e.become id (.sending (.expired s)) else none
  | .expired s =>
    match e.outgoing.retire s.lease with
    | (some m, outgoing) => { e with outgoing }.takeAnswer id s m.reaction
    | (none, outgoing) => { e with outgoing }.become id
        (.sending (.closing s.lease (.error (.relayCause .resourcesUnavailable))))
  | .concluding _ _ => none
  | .closing lease outcome =>
    { e with outgoing := e.outgoing.drop lease }.finish id (.sent outcome)

/-! ## Serving -/

/-- Hands the answer of the application to the transport, or the error that stands for it. -/
def reply (e : Entity) (id : TaskId) (s : Service) (outcome : ShortMessage.Service.Outcome)
    (now : Timestamp) : Step :=
  let data := do
    let answer ← ShortMessage.Service.answer s.request outcome now
    (Message.carrying s.transaction answer).mapError Failure.codec
  match data with
  | .ok data => e.emit id data (.serving (.delivering s.lease data (.transmitting 0)))
  | .error failure => e.emit id
      (.error s.transaction (failure.controlCause?.getD .protocolError))
      (.serving (.refusing s.lease))

/-- The next step of serving that need not wait. -/
def runServing (e : Entity) (id : TaskId) : Serving → Step
  | .accepted s =>
    match ShortMessage.Service.call? s.request with
    | some call => some (e.put id (.serving (.handling s)), [.called id call])
    | none => e.emit id (.error s.transaction .protocolError) (.serving (.refusing s.lease))
  | .delivering lease _ (.awaiting _ _) =>
    match e.incoming.take? lease with
    | some (_, incoming) => { e with incoming }.become id (.serving (.closing lease))
    | none => none
  | .closing lease => { e with incoming := e.incoming.drop lease }.finish id .served
  | _ => none

/-! ## Receiving -/

/-- Sends an error back and reports the same cause. -/
def reject (e : Entity) (id : TaskId) (t : TransactionId) (cause : Cause) : Step :=
  e.emit id (.error t cause) (.receiving (.replying (.error (.control cause))))

/-- Acknowledges data that needs nothing else. -/
def acknowledgeAgain (e : Entity) (id : TaskId) (t : TransactionId) : Step :=
  e.emit id (.ack t.reverse) (.receiving (.replying (.ok ())))

/-- A message that no transaction waits for.  An error is never answered. -/
def stray (e : Entity) (id : TaskId) (m : Message) : Step :=
  match m with
  | .error _ _ => e.finish id (.received (.error (.control .invalidTransactionId)))
  | _ => e.reject id m.transaction.reverse .invalidTransactionId

/-- Data of the other side on a transaction that it opened: something new, or a repetition. -/
def receiveData (e : Entity) (id : TaskId) (t : TransactionId) (payload : Octets) : Step :=
  if e.incoming.isHeld t.value.toNat then e.acknowledgeAgain id t
  else
    match judgeRequest payload with
    | .ok request => e.become id (.receiving (.opening t request))
    | .error cause => e.reject id t.reverse cause

/-- A message from the connection. -/
def receiveMessage (e : Entity) (id : TaskId) (m : Message) : Step :=
  let index := m.transaction.value.toNat
  if m.transaction.flag then
    match e.outgoing.post index m with
    | .ok outgoing => { e with outgoing }.finish id (.received (.ok ()))
    | .error _ => e.stray id m
  else
    match m with
    | .data t payload => e.receiveData id t payload
    | _ =>
      match e.incoming.post index m with
      | .ok incoming => { e with incoming }.finish id (.received (.ok ()))
      | .error _ => e.stray id m

/-- Takes the transaction of a request, unless another request was faster. -/
def openService (e : Entity) (id : TaskId) (t : TransactionId) (request : Relay.Message) : Step :=
  match e.incoming.leaseAt? t.value.toNat () with
  | some (lease, incoming) =>
    { e with incoming }.emit id (.ack t.reverse) (.receiving (.accepting ⟨request, lease, t.reverse⟩))
  | none => e.acknowledgeAgain id t

/-- Octets from the connection.  A message of an unknown type is answered, any other octets that
cannot be read are dropped. -/
def receiveOctets (e : Entity) (id : TaskId) (s : Octets) : Step :=
  match Message.ofOctets s with
  | .ok m => e.become id (.receiving (.arrived m))
  | .error (.unknownType _ _) =>
    match s.head?.map TransactionId.ofOctet with
    | some (.ok t) => e.reject id t.reverse .messageTypeNonExistent
    | _ => e.finish id (.received (.error (.control .messageTypeNonExistent)))
  | .error fault => e.finish id (.received (.error (.codec fault)))

/-- The next step of receiving that need not wait. -/
def runReceiving (e : Entity) (id : TaskId) : Receiving → Step
  | .octets s => e.receiveOctets id s
  | .arrived m => e.receiveMessage id m
  | .opening t request => e.openService id t request
  | .withdrawing lease failure =>
    { e with incoming := e.incoming.drop lease }.finish id (.received (.error failure))
  | .accepting _ | .replying _ => none

/-! ## What each move does -/

/-- A task that need not wait takes a step. -/
def run (e : Entity) (id : TaskId) : Step :=
  match e.task? id with
  | some (.sending s) => e.runSending id s
  | some (.serving s) => e.runServing id s
  | some (.receiving r) => e.runReceiving id r
  | none => none

/-- The transport is done with a message of a task that sends. -/
def sentSending (e : Entity) (id : TaskId) (result : Except Failure Unit) : Sending → Step
  | .delivering s (.transmitting repeated) =>
    match result with
    | .ok () => e.become id
        (.sending (.delivering s (.awaiting repeated (e.clock + e.config.ackTime))))
    | .error failure => e.become id (.sending (.closing s.lease (.error failure)))
  | .concluding lease outcome =>
    match result with
    | .ok () => e.become id (.sending (.closing lease outcome))
    | .error failure => e.become id (.sending (.closing lease (.error failure)))
  | _ => none

/-- The transport is done with a message of a task that serves. -/
def sentServing (e : Entity) (id : TaskId) (result : Except Failure Unit) : Serving → Step
  | .delivering lease data (.transmitting repeated) =>
    match result with
    | .ok () => e.become id
        (.serving (.delivering lease data (.awaiting repeated (e.clock + e.config.ackTime))))
    | .error _ => e.become id (.serving (.closing lease))
  | .refusing lease => e.become id (.serving (.closing lease))
  | _ => none

/-- The transport is done with a message of a task that receives.  Once a request is acknowledged
it is served by a task of its own. -/
def sentReceiving (e : Entity) (id : TaskId) (result : Except Failure Unit) : Receiving → Step
  | .accepting service =>
    match result with
    | .ok () => (e.spawn (.serving (.accepted service))).finish id (.received (.ok ()))
    | .error failure => e.become id (.receiving (.withdrawing service.lease failure))
  | .replying outcome =>
    match result with
    | .ok () => e.finish id (.received outcome)
    | .error failure => e.finish id (.received (.error failure))
  | _ => none

/-- The transport is done. -/
def sent (e : Entity) (id : TaskId) (result : Except Failure Unit) : Step :=
  match e.task? id with
  | some (.sending s) => e.sentSending id result s
  | some (.serving s) => e.sentServing id result s
  | some (.receiving r) => e.sentReceiving id result r
  | none => none

/-- The application is done. -/
def answered (e : Entity) (id : TaskId) (outcome : ShortMessage.Service.Outcome)
    (now : Timestamp) : Step :=
  match e.task? id with
  | some (.serving (.handling s)) => e.reply id s outcome now
  | _ => none

/-- The time at which a task stops waiting. -/
def deadline? (e : Entity) (id : TaskId) : Option Nat :=
  match e.task? id with
  | some (.sending (.delivering _ (.awaiting _ deadline)))
  | some (.sending (.awaitingAnswer _ deadline))
  | some (.serving (.delivering _ _ (.awaiting _ deadline))) => some deadline
  | _ => none

/-- A task has waited long enough and no message is there.  Data is repeated as long as it may be;
a request whose answer does not come gives its transaction back. -/
def expire (e : Entity) (id : TaskId) : Step :=
  match e.task? id with
  | some (.sending (.delivering s (.awaiting repeated deadline))) =>
    if deadline ≤ e.clock ∧ e.outgoing.pending s.lease = [] then
      if repeated < e.config.maxRetransmissions then
        e.emit id s.data (.sending (.delivering s (.transmitting (repeated + 1))))
      else e.become id (.sending (.closing s.lease (.error (.control .networkFailure))))
    else none
  | some (.sending (.awaitingAnswer s deadline)) =>
    if deadline ≤ e.clock ∧ e.outgoing.pending s.lease = [] then
      e.become id (.sending (.expired s))
    else none
  | some (.serving (.delivering lease data (.awaiting repeated deadline))) =>
    if deadline ≤ e.clock ∧ e.incoming.pending lease = [] then
      if repeated < e.config.maxRetransmissions then
        e.emit id data (.serving (.delivering lease data (.transmitting (repeated + 1))))
      else e.become id (.serving (.closing lease))
    else none
  | _ => none

/-- The lease that a task has among the transactions of this side. -/
def outgoingLease? : Task → Option Lease
  | .sending (.delivering s _) | .sending (.awaitingAnswer s _) | .sending (.expired s) =>
    some s.lease
  | .sending (.concluding lease _) | .sending (.closing lease _) => some lease
  | _ => none

/-- The lease that a task has among the transactions of the other side. -/
def incomingLease? : Task → Option Lease
  | .serving (.accepted s) | .serving (.handling s) | .receiving (.accepting s) => some s.lease
  | .serving (.delivering lease _ _) | .serving (.refusing lease) | .serving (.closing lease)
  | .receiving (.withdrawing lease _) => some lease
  | _ => none

/-- A table without a lease. -/
def without (t : Table Message Unit) : Option Lease → Table Message Unit
  | some lease => t.drop lease
  | none => t

/-- A task is given up. -/
def abort (e : Entity) (id : TaskId) : Step :=
  match e.task? id with
  | none => none
  | some task =>
    some ({ e with
      outgoing := without e.outgoing (outgoingLease? task)
      incoming := without e.incoming (incomingLease? task) }.remove id, [])

/-- The task for an input. -/
def taskFor : Input → Task
  | .send m => .sending (.opening m)
  | .receive m => .receiving (.arrived m)
  | .receiveOctets s => .receiving (.octets s)

/-- What a move does and what others see of it; nothing if it is not possible now. -/
def step? (e : Entity) : Move Input → Step
  | .start input => some (e.spawn (taskFor input), [])
  | .run id => e.run id
  | .sent id result => e.sent id result
  | .answered id outcome now => e.answered id outcome now
  | .expire id => e.expire id
  | .abort id => e.abort id
  | .elapse duration => some ({ e with clock := e.clock + duration }, [])

end Entity

end ShortMessage.Control
