import ShortMessage.Control.Entity
import ShortMessage.Proofs.Transaction.Tasks

/-!
# What a control entity can do

`Entity.Act` lists what a task of a control entity can do, one constructor for each step, with its
guards: the phase that the task goes on to unless it ends, the two tables, and what others see.
`Entity.Rule` adds the steps that are not those of one task.  A step leaves the entity as `settle`
says, whose lemmas give each part of it.
-/

namespace ShortMessage.Control

open Transaction (TaskId Table Lease Move Event)

namespace Entity

variable {e e' : Entity} {id j : TaskId}

/-! ## The list of tasks -/

/-- A task that goes on takes the place of what it was. -/
theorem task?_put (e : Entity) (id j : TaskId) (task : Task) :
    (e.put id task).task? j = if j = id then (e.task? id).map fun _ => task else e.task? j :=
  Transaction.lookup_replaced e.tasks id j task

theorem task?_put_self {task task' : Task} {outgoing : Table Message Unit}
    (ht : e.task? id = some task) :
    (({ e with outgoing } : Entity).put id task').task? id = some task' := by
  have ht0 : ({ e with outgoing } : Entity).task? id = some task := ht
  rw [task?_put, if_pos rfl, ht0, Option.map_some]

theorem task?_remove (e : Entity) (id j : TaskId) :
    (e.remove id).task? j = if j = id then none else e.task? j :=
  Transaction.lookup_removed e.tasks id j

/-- A new task stands behind all others, so that one with its number would be found first. -/
theorem task?_spawn (e : Entity) (task : Task) (j : TaskId) :
    (e.spawn task).task? j = (e.task? j).or (if j = e.started then some task else none) :=
  Transaction.lookup_added e.tasks e.started j task

/-- A task goes on, or ends, and leaves these tables behind. -/
def settle (e : Entity) (id : TaskId) (task : Option Task) (outgoing incoming : Table Message Unit) :
    Entity :=
  match task with
  | some task => { e with outgoing, incoming }.put id task
  | none => { e with outgoing, incoming }.remove id

section

variable (task : Option Task) (outgoing incoming : Table Message Unit)

/-- Only the task that takes the step is another one after it. -/
theorem task?_settle {task0 : Task} (ht : e.task? id = some task0) :
    (e.settle id task outgoing incoming).task? j = if j = id then task else e.task? j := by
  have hsame : ({ e with outgoing, incoming } : Entity).task? = e.task? := rfl
  cases task with
  | none => exact (task?_remove _ id j).trans (by rw [hsame])
  | some task => exact (task?_put _ id j task).trans (by rw [hsame, ht, Option.map_some])

@[simp] theorem outgoing_settle : (e.settle id task outgoing incoming).outgoing = outgoing := by
  cases task <;> rfl

@[simp] theorem incoming_settle : (e.settle id task outgoing incoming).incoming = incoming := by
  cases task <;> rfl

@[simp] theorem clock_settle : (e.settle id task outgoing incoming).clock = e.clock := by
  cases task <;> rfl

@[simp] theorem config_settle : (e.settle id task outgoing incoming).config = e.config := by
  cases task <;> rfl

@[simp] theorem started_settle : (e.settle id task outgoing incoming).started = e.started := by
  cases task <;> rfl

end

/-! ## The steps of a task -/

/-- What a session goes on to with a message of the other side, and the last word that it says.
Data that was `confirmed` before has arrived in any case. -/
inductive Follow (e : Entity) (s : Session) (confirmed : Bool) :
    Message → Sending → Option Message → Prop where
  | ended {t cause} : Follow e s confirmed (.error t cause)
      (.closing s.lease (.error (.control cause))) none
  | waits {t} : (confirmed || s.message.isRequest) = true → Follow e s confirmed (.ack t)
      (.awaitingAnswer s (e.clock + e.config.answerTime)) none
  | arrived {m} : (confirmed || s.message.isRequest) = false → (∀ t cause, m ≠ .error t cause) →
      Follow e s confirmed m (.closing s.lease (.ok none)) none
  | answered {t payload answer} : (confirmed || s.message.isRequest) = true →
      judgeAnswer s.message payload = .ok answer →
      Follow e s confirmed (.data t payload) (.concluding s.lease (.ok (some answer)))
        (some (.ack s.data.transaction))
  | refused {t payload cause} : (confirmed || s.message.isRequest) = true →
      judgeAnswer s.message payload = .error cause →
      Follow e s confirmed (.data t payload) (.concluding s.lease (.error (.control cause)))
        (some (.error s.data.transaction cause))

/-- A last word, as others see it. -/
def saying (id : TaskId) : Option Message → List (Event Message Result)
  | some m => [.emitted id m]
  | none => []

/-- Every step of one task: the move, the task before it and after it, the transactions of this side
and of the other one after it, and what others see. -/
inductive Act (e : Entity) (id : TaskId) : Move Input → Task → Option Task →
    Table Message Unit → Table Message Unit → List (Event Message Result) → Prop where
  -- sending
  | congested {m} : e.outgoing.lease? () = none →
      Act e id (.run id) (.sending (.opening m)) none e.outgoing e.incoming
        [.returned id (.sent (.error (.relayCause .congestion)))]
  | opened {m lease outgoing data} : e.outgoing.lease? () = some (lease, outgoing) →
      Message.carrying ⟨false, UInt8.ofNat lease.index⟩ m = .ok data →
      Act e id (.run id) (.sending (.opening m))
        (some (.sending (.delivering ⟨m, lease, data⟩ (.transmitting 0)))) outgoing e.incoming
        [.emitted id data]
  | unwritable {m lease outgoing fault} : e.outgoing.lease? () = some (lease, outgoing) →
      Message.carrying ⟨false, UInt8.ofNat lease.index⟩ m = .error fault →
      Act e id (.run id) (.sending (.opening m))
        (some (.sending (.closing lease (.error (.codec fault))))) outgoing e.incoming []
  | delivered {s repeated deadline m outgoing phase word} :
      e.outgoing.take? s.lease = some (m, outgoing) → Follow e s false m phase word →
      Act e id (.run id) (.sending (.delivering s (.awaiting repeated deadline)))
        (some (.sending phase)) outgoing e.incoming (saying id word)
  | took {s deadline m outgoing phase word} :
      e.outgoing.take? s.lease = some (m, outgoing) → Follow e s true m phase word →
      Act e id (.run id) (.sending (.awaitingAnswer s deadline)) (some (.sending phase)) outgoing
        e.incoming (saying id word)
  | lapsed {s deadline} : e.outgoing.pending s.lease = [] →
      e.outgoing.isReleased s.lease = true →
      Act e id (.run id) (.sending (.awaitingAnswer s deadline)) (some (.sending (.expired s)))
        e.outgoing e.incoming []
  | tookLate {s m phase word} : (e.outgoing.retire s.lease).1 = some m →
      Follow e s true m phase word →
      Act e id (.run id) (.sending (.expired s)) (some (.sending phase))
        (e.outgoing.retire s.lease).2 e.incoming (saying id word)
  | tookNothing {s} : (e.outgoing.retire s.lease).1 = none →
      Act e id (.run id) (.sending (.expired s))
        (some (.sending (.closing s.lease (.error (.relayCause .resourcesUnavailable)))))
        (e.outgoing.retire s.lease).2 e.incoming []
  | closed {lease outcome} :
      Act e id (.run id) (.sending (.closing lease outcome)) none (e.outgoing.drop lease) e.incoming
        [.returned id (.sent outcome)]
  | transmitted {s repeated} :
      Act e id (.sent id (.ok ())) (.sending (.delivering s (.transmitting repeated)))
        (some (.sending (.delivering s (.awaiting repeated (e.clock + e.config.ackTime)))))
        e.outgoing e.incoming []
  | untransmitted {s repeated failure} :
      Act e id (.sent id (.error failure)) (.sending (.delivering s (.transmitting repeated)))
        (some (.sending (.closing s.lease (.error failure)))) e.outgoing e.incoming []
  | concluded {lease outcome} :
      Act e id (.sent id (.ok ())) (.sending (.concluding lease outcome))
        (some (.sending (.closing lease outcome))) e.outgoing e.incoming []
  | unconcluded {lease outcome failure} :
      Act e id (.sent id (.error failure)) (.sending (.concluding lease outcome))
        (some (.sending (.closing lease (.error failure)))) e.outgoing e.incoming []
  | repeated {s repeated deadline} : deadline ≤ e.clock → e.outgoing.pending s.lease = [] →
      repeated < e.config.maxRetransmissions →
      Act e id (.expire id) (.sending (.delivering s (.awaiting repeated deadline)))
        (some (.sending (.delivering s (.transmitting (repeated + 1))))) e.outgoing e.incoming
        [.emitted id s.data]
  | gaveUp {s repeated deadline} : deadline ≤ e.clock → e.outgoing.pending s.lease = [] →
      e.config.maxRetransmissions ≤ repeated →
      Act e id (.expire id) (.sending (.delivering s (.awaiting repeated deadline)))
        (some (.sending (.closing s.lease (.error (.control .networkFailure))))) e.outgoing
        e.incoming []
  | expired {s deadline} : deadline ≤ e.clock → e.outgoing.pending s.lease = [] →
      Act e id (.expire id) (.sending (.awaitingAnswer s deadline)) (some (.sending (.expired s)))
        e.outgoing e.incoming []
  -- serving
  | called {s call} : ShortMessage.Service.call? s.request = some call →
      Act e id (.run id) (.serving (.accepted s)) (some (.serving (.handling s))) e.outgoing
        e.incoming [.called id call]
  | uncalled {s} : ShortMessage.Service.call? s.request = none →
      Act e id (.run id) (.serving (.accepted s)) (some (.serving (.refusing s.lease))) e.outgoing
        e.incoming [.emitted id (.error s.transaction .protocolError)]
  | replied {s outcome now answer data} :
      ShortMessage.Service.answer s.request outcome now = .ok answer →
      Message.carrying s.transaction answer = .ok data →
      Act e id (.answered id outcome now) (.serving (.handling s))
        (some (.serving (.delivering s.lease data (.transmitting 0)))) e.outgoing e.incoming
        [.emitted id data]
  | unreplied {s outcome now failure} :
      (do let answer ← ShortMessage.Service.answer s.request outcome now
          (Message.carrying s.transaction answer).mapError Failure.codec) = .error failure →
      Act e id (.answered id outcome now) (.serving (.handling s))
        (some (.serving (.refusing s.lease))) e.outgoing e.incoming
        [.emitted id (.error s.transaction (failure.controlCause?.getD .protocolError))]
  | confirmed {lease data repeated deadline m incoming} :
      e.incoming.take? lease = some (m, incoming) →
      Act e id (.run id) (.serving (.delivering lease data (.awaiting repeated deadline)))
        (some (.serving (.closing lease))) e.outgoing incoming []
  | served {lease} :
      Act e id (.run id) (.serving (.closing lease)) none e.outgoing (e.incoming.drop lease)
        [.returned id .served]
  | replyTransmitted {lease data repeated} :
      Act e id (.sent id (.ok ())) (.serving (.delivering lease data (.transmitting repeated)))
        (some (.serving (.delivering lease data (.awaiting repeated (e.clock + e.config.ackTime)))))
        e.outgoing e.incoming []
  | replyUntransmitted {lease data repeated failure} :
      Act e id (.sent id (.error failure)) (.serving (.delivering lease data (.transmitting repeated)))
        (some (.serving (.closing lease))) e.outgoing e.incoming []
  | refusalTransmitted {lease result} :
      Act e id (.sent id result) (.serving (.refusing lease)) (some (.serving (.closing lease)))
        e.outgoing e.incoming []
  | replyRepeated {lease data repeated deadline} : deadline ≤ e.clock →
      e.incoming.pending lease = [] → repeated < e.config.maxRetransmissions →
      Act e id (.expire id) (.serving (.delivering lease data (.awaiting repeated deadline)))
        (some (.serving (.delivering lease data (.transmitting (repeated + 1))))) e.outgoing
        e.incoming [.emitted id data]
  | replyGivenUp {lease data repeated deadline} : deadline ≤ e.clock →
      e.incoming.pending lease = [] → e.config.maxRetransmissions ≤ repeated →
      Act e id (.expire id) (.serving (.delivering lease data (.awaiting repeated deadline)))
        (some (.serving (.closing lease))) e.outgoing e.incoming []
  -- receiving
  | read {s m} : Message.ofOctets s = .ok m →
      Act e id (.run id) (.receiving (.octets s)) (some (.receiving (.arrived m))) e.outgoing
        e.incoming []
  | unknown {s layer value t} : Message.ofOctets s = .error (.unknownType layer value) →
      s.head?.map TransactionId.ofOctet = some (.ok t) →
      Act e id (.run id) (.receiving (.octets s))
        (some (.receiving (.replying (.error (.control .messageTypeNonExistent))))) e.outgoing
        e.incoming [.emitted id (.error t.reverse .messageTypeNonExistent)]
  | unknownStray {s layer value} : Message.ofOctets s = .error (.unknownType layer value) →
      (∀ t, s.head?.map TransactionId.ofOctet ≠ some (.ok t)) →
      Act e id (.run id) (.receiving (.octets s)) none e.outgoing e.incoming
        [.returned id (.received (.error (.control .messageTypeNonExistent)))]
  | unread {s fault} : Message.ofOctets s = .error fault →
      (∀ layer value, fault ≠ .unknownType layer value) →
      Act e id (.run id) (.receiving (.octets s)) none e.outgoing e.incoming
        [.returned id (.received (.error (.codec fault)))]
  | posted {m outgoing} : m.transaction.flag = true →
      e.outgoing.post m.transaction.value.toNat m = .ok outgoing →
      Act e id (.run id) (.receiving (.arrived m)) none outgoing e.incoming
        [.returned id (.received (.ok ()))]
  | postedIncoming {m incoming} : m.transaction.flag = false → (∀ t payload, m ≠ .data t payload) →
      e.incoming.post m.transaction.value.toNat m = .ok incoming →
      Act e id (.run id) (.receiving (.arrived m)) none e.outgoing incoming
        [.returned id (.received (.ok ()))]
  | strayError {t cause u} :
      (if t.flag then e.outgoing else e.incoming).post t.value.toNat (.error t cause) = .error u →
      Act e id (.run id) (.receiving (.arrived (.error t cause))) none e.outgoing e.incoming
        [.returned id (.received (.error (.control .invalidTransactionId)))]
  | stray {m u} : (if m.transaction.flag then e.outgoing else e.incoming).post
        m.transaction.value.toNat m = .error u →
      (m.transaction.flag = false → ∀ t payload, m ≠ .data t payload) →
      (∀ t cause, m ≠ .error t cause) →
      Act e id (.run id) (.receiving (.arrived m))
        (some (.receiving (.replying (.error (.control .invalidTransactionId))))) e.outgoing
        e.incoming [.emitted id (.error m.transaction.reverse .invalidTransactionId)]
  | passedOver {t payload} : t.flag = false → e.incoming.isHeld t.value.toNat = true →
      Act e id (.run id) (.receiving (.arrived (.data t payload)))
        (some (.receiving (.replying (.ok ())))) e.outgoing e.incoming
        [.emitted id (.ack t.reverse)]
  | lookedAt {t payload request} : t.flag = false → e.incoming.isHeld t.value.toNat = false →
      judgeRequest payload = .ok request →
      Act e id (.run id) (.receiving (.arrived (.data t payload)))
        (some (.receiving (.opening t request))) e.outgoing e.incoming []
  | rejected {t payload cause} : t.flag = false → e.incoming.isHeld t.value.toNat = false →
      judgeRequest payload = .error cause →
      Act e id (.run id) (.receiving (.arrived (.data t payload)))
        (some (.receiving (.replying (.error (.control cause))))) e.outgoing e.incoming
        [.emitted id (.error t.reverse cause)]
  | accepted {t request lease incoming} :
      e.incoming.leaseAt? t.value.toNat () = some (lease, incoming) →
      Act e id (.run id) (.receiving (.opening t request))
        (some (.receiving (.accepting ⟨request, lease, t.reverse⟩))) e.outgoing incoming
        [.emitted id (.ack t.reverse)]
  | tooLate {t request} : e.incoming.leaseAt? t.value.toNat () = none →
      Act e id (.run id) (.receiving (.opening t request)) (some (.receiving (.replying (.ok ()))))
        e.outgoing e.incoming [.emitted id (.ack t.reverse)]
  | unaccepted {service failure} :
      Act e id (.sent id (.error failure)) (.receiving (.accepting service))
        (some (.receiving (.withdrawing service.lease failure))) e.outgoing e.incoming []
  | withdrawn {lease failure} :
      Act e id (.run id) (.receiving (.withdrawing lease failure)) none e.outgoing
        (e.incoming.drop lease) [.returned id (.received (.error failure))]
  | replyDone {outcome} :
      Act e id (.sent id (.ok ())) (.receiving (.replying outcome)) none e.outgoing e.incoming
        [.returned id (.received outcome)]
  | replyFailed {outcome failure} :
      Act e id (.sent id (.error failure)) (.receiving (.replying outcome)) none e.outgoing
        e.incoming [.returned id (.received (.error failure))]
  -- anything
  | aborted {task} : Act e id (.abort id) task none (without e.outgoing (outgoingLease? task))
      (without e.incoming (incomingLease? task)) []

/-- Every step of a control entity. -/
inductive Rule (e : Entity) : Move Input → Entity → List (Event Message Result) → Prop where
  | start (input : Input) : Rule e (.start input) (e.spawn (taskFor input)) []
  | act {id move task task' outgoing incoming events} : e.task? id = some task →
      Act e id move task task' outgoing incoming events →
      Rule e move (e.settle id task' outgoing incoming) events
  /-- An acknowledged request is served by a task of its own. -/
  | handedOver {id service} : e.task? id = some (.receiving (.accepting service)) →
      Rule e (.sent id (.ok ())) ((e.spawn (.serving (.accepted service))).remove id)
        [.returned id (.received (.ok ()))]
  | elapsed (duration : Nat) :
      Rule e (.elapse duration) { e with clock := e.clock + duration } []

end Entity

end ShortMessage.Control
