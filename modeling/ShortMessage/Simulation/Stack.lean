import ShortMessage.Simulation.Solo

/-!
# Two stacks face to face

Each side has a relay entity over a control entity: what the relay entity hands to its transport is
sent by the control entity, and the answer that comes back on the transaction is given to the relay
entity.  What the control entities send travels as octets, in order and without delay, unless the
wire fails or is told to lose some of it.
-/

namespace ShortMessage.Simulation

open Transaction (TaskId)

/-- One side. -/
structure Station where
  relay : Bench Relay.Entity Relay.Input Relay.Message Relay.Result
  control : Bench Control.Entity Control.Input Control.Message Control.Result
  /-- What the wire fails with, while it fails. -/
  wire : Option Failure := none
  /-- How many of the next messages the wire loses. -/
  losing : Nat := 0
  /-- Octets that have come in and are still to be read. -/
  inbox : List Octets := []
  /-- Answers that are still to be given to the relay entity. -/
  answers : List Relay.Message := []
  /-- Which task of the control entity sends for which task of the relay entity. -/
  links : List (TaskId × TaskId) := []
  /-- Failures that nobody waits for. -/
  faults : List Failure := []

/-- The two sides. -/
inductive Side where
  | mobile
  | centre
  deriving DecidableEq, Repr

/-- The side across. -/
def Side.other : Side → Side
  | .mobile => .centre
  | .centre => .mobile

/-- What takes turns on one side. -/
inductive Job where
  /-- Reads what has come in. -/
  | inbox
  /-- Gives answers to the relay entity. -/
  | answers
  | relay (id : TaskId)
  | control (id : TaskId)
  deriving DecidableEq, Repr

namespace Station

/-- A side before anything has happened. -/
def ofConfig (relay : Relay.Config) (control : Control.Config) (calendar : Timestamp) : Station :=
  { relay := { entity := Relay.Entity.ofConfig relay, calendar }
    control := { entity := Control.Entity.ofConfig control, calendar } }

/-- Hands a message to the wire; what arrives on the other side, if anything does.  What cannot be
written is not even tried. -/
def transmit (s : Station) (id : TaskId) (m : Control.Message) : Station × List Octets :=
  match m.encode with
  | .error fault => ({ s with control := s.control.deliver id (.error (.codec fault)) }, [])
  | .ok octets =>
    let control := s.control.record m s.wire.isNone
    match s.wire with
    | some failure => ({ s with control := control.deliver id (.error failure) }, [])
    | none =>
      let s := { s with control := control.deliver id (.ok ()) }
      if 0 < s.losing then ({ s with losing := s.losing - 1 }, []) else (s, [octets])

/-- Hands messages to the wire. -/
def transmitAll (s : Station) : List (TaskId × Control.Message) → Station × List Octets
  | [] => (s, [])
  | (id, m) :: rest =>
    let (s, first) := s.transmit id m
    let (s, others) := s.transmitAll rest
    (s, first ++ others)

/-- A task of the control entity makes a move; what arrives on the other side. -/
def controlMove? (s : Station) (id : TaskId) : Option (Station × List Octets) :=
  (s.control.advance? id).map fun (control, emitted) => { s with control }.transmitAll emitted

/-- The task of the control entity that sends for a task of the relay entity. -/
def sender? (s : Station) (id : TaskId) : Option TaskId := (s.links.find? (·.2 = id)).map (·.1)

/-- The control entity is to send what the relay entity hands to its transport. -/
def startSender (s : Station) (emission : TaskId × Relay.Message) : Station :=
  let (id, control) := s.control.start (.send emission.2)
  { s with control, links := s.links ++ [(id, emission.1)] }

/-- Once a task of the control entity has ended, tells the relay entity what became of what it has
sent. -/
def reportSent (s : Station) (id : TaskId) : Station :=
  match s.links.lookup id, s.control.ended.lookup id with
  | some relayId, some (.returned (.sent outcome)) => { s with
      links := s.links.filter (·.1 ≠ id)
      relay := s.relay.deliver relayId (outcome.map fun _ => ())
      answers := match outcome with
        | .ok (some answer) => s.answers ++ [answer]
        | _ => s.answers }
  | some _, some _ => { s with links := s.links.filter (·.1 ≠ id) }
  | _, _ => s

/-- A task of the relay entity makes a move, or the one that sends for it; what arrives on the
other side. -/
def relayMove? (s : Station) (id : TaskId) : Option (Station × List Octets) :=
  match s.sender? id with
  | some sender => (s.controlMove? sender).map fun (s, out) => (s.reportSent sender, out)
  | none => (s.relay.advance? id).map fun (relay, emitted) =>
      (emitted.foldl startSender { s with relay }, [])

/-- Up to `n` moves, until no move is left; what arrives on the other side. -/
def repeatMove (move? : Station → Option (Station × List Octets)) :
    Nat → Station → Station × List Octets
  | 0, s => (s, [])
  | n + 1, s =>
    match move? s with
    | none => (s, [])
    | some (s, first) =>
      let (s, others) := repeatMove move? n s
      (s, first ++ others)

/-- What is worth writing down of something that nobody waits for. -/
def failures : Option (Except Failure Unit) → List Failure
  | some (.error failure) => [failure]
  | _ => []

/-- Reads the first octets that have come in. -/
def readInbox? (s : Station) : Option (Station × List Octets) :=
  match s.inbox with
  | [] => none
  | octets :: inbox =>
    let (id, control) := s.control.start (.receiveOctets octets)
    let (s, out) := repeatMove (controlMove? · id) Bench.movesPerTurn { s with control, inbox }
    let (outcome, control) := s.control.collect id
    some ({ s with control, faults := s.faults ++ failures outcome }, out)

/-- Gives the first answer to the relay entity. -/
def giveAnswer? (s : Station) : Option (Station × List Octets) :=
  match s.answers with
  | [] => none
  | answer :: answers =>
    let (id, relay) := s.relay.start (.indication answer)
    let (s, out) := repeatMove (relayMove? · id) Bench.movesPerTurn { s with relay, answers }
    let (outcome, relay) := s.relay.collect id
    some ({ s with relay, faults := s.faults ++ failures outcome }, out)

/-- The tasks of both entities.  One that sends for another goes on with that. -/
def tasks (s : Station) : List Job :=
  s.relay.tasks.map .relay ++
    (s.control.tasks.filter fun id => !s.links.any (·.1 = id)).map .control

/-- Is there something to do for a job now? -/
def isReady (s : Station) : Job → Bool
  | .inbox => !s.inbox.isEmpty
  | .answers => !s.answers.isEmpty
  | .relay id =>
    match s.sender? id with
    | some sender => s.control.isReady sender
    | none => s.relay.isReady id
  | .control id => s.control.isReady id

/-- Does the next move of a job take up an event? -/
def takesEvent (s : Station) : Job → Bool
  | .inbox => !s.inbox.isEmpty
  | .answers => !s.answers.isEmpty
  | .relay id =>
    match s.sender? id with
    | some sender => s.control.takesEvent sender
    | none => s.relay.takesEvent id
  | .control id => s.control.takesEvent id

/-- Does a job that has stood back come back before the others wait?  What comes in does not call
those who read it. -/
def isCalled (s : Station) : Job → Bool
  | .inbox | .answers => false
  | .relay id =>
    match s.sender? id with
    | some sender => s.control.isCalled sender
    | none => s.relay.isCalled id
  | .control id => s.control.isCalled id

/-- A job makes a move: one thing that has come in is dealt with, or a task goes on. -/
def move? (s : Station) : Job → Option (Station × List Octets)
  | .inbox => s.readInbox?
  | .answers => s.giveAnswer?
  | .relay id => s.relayMove? id
  | .control id => s.controlMove? id

/-- A job takes up an event, if it has waited for one, and does all that follows. -/
def turn (s : Station) (job : Job) : Station × List Octets :=
  match s.move? job with
  | none => (s, [])
  | some (s, first) =>
    let follow? (s : Station) := if s.takesEvent job then none else s.move? job
    let (s, others) := repeatMove follow? Bench.movesPerTurn s
    (s, first ++ others)

/-- Gives up a task of the relay entity, and what is sent for it. -/
def abandon (s : Station) (id : TaskId) : Station :=
  { s with
    relay := { s.relay with abandoned := s.relay.abandoned ++ [id] }
    control := { s.control with
      abandoned := s.control.abandoned ++ (s.sender? id).toList } }

/-- The time for which a job waits. -/
def alarm? (s : Station) : Job → Option Nat
  | .inbox | .answers => none
  | .relay id =>
    match s.sender? id with
    | some sender => s.control.alarm? sender
    | none => s.relay.alarm? id
  | .control id => s.control.alarm? id

/-- The clocks go on. -/
def elapse (s : Station) (duration : Nat) : Station :=
  { s with relay := s.relay.elapse duration, control := s.control.elapse duration }

/-- The side after a look at it. -/
def cleared (s : Station) : Station :=
  { s with relay := s.relay.cleared, control := s.control.cleared, faults := [] }

end Station

/-- Two sides, and the tasks that someone waits for. -/
structure Stack where
  mobile : Station
  centre : Station
  /-- The names of the tasks, in the order of their start. -/
  labels : List (Side × TaskId × String) := []

/-- What someone does to one of the sides. -/
inductive StackAction where
  /-- Starts a request that someone waits for. -/
  | request (side : Side) (label : String) (r : Relay.Request)
  /-- Sets up what the application says, or how long it takes. -/
  | application (side : Side) (message : Option Service.Outcome)
      (memory : Option (Except Failure Unit)) (delay : Option Nat)
  /-- Makes the wire fail, or work again. -/
  | wire (side : Side) (failure : Option Failure)
  /-- Loses the next messages that a side sends. -/
  | lose (side : Side) (count : Nat)
  /-- Lets octets arrive at a side. -/
  | arrive (side : Side) (octets : Octets)
  /-- Gives up all tasks with a name. -/
  | abort (label : String)
  /-- Lets time go on. -/
  | advance (duration : Nat)
  deriving Repr

/-- What is seen after a step. -/
structure StackObservation where
  time : Nat
  /-- Tasks that have ended, with their names, in the order of their start. -/
  done : List (String × Ending Relay.Result)
  mobile : Station
  centre : Station

namespace Stack

/-- One of the sides. -/
def station (s : Stack) : Side → Station
  | .mobile => s.mobile
  | .centre => s.centre

/-- Changes one of the sides. -/
def modify (s : Stack) (side : Side) (change : Station → Station) : Stack :=
  match side with
  | .mobile => { s with mobile := change s.mobile }
  | .centre => { s with centre := change s.centre }

/-- Lets octets arrive at a side. -/
def arrive (s : Stack) (side : Side) (octets : List Octets) : Stack :=
  s.modify side fun t => { t with inbox := t.inbox ++ octets }

/-- The jobs of both sides.  Wires come first: what a task hands over is under way before the task
goes on. -/
def workers (s : Stack) : List (Side × Job) :=
  [(.mobile, .inbox), (.centre, .inbox), (.mobile, .answers), (.centre, .answers)] ++
    (s.mobile.tasks.map (Side.mobile, ·) ++ s.centre.tasks.map (Side.centre, ·))

/-- A job of one side is done. -/
def turn (s : Stack) (worker : Side × Job) : Stack :=
  let (station, out) := (s.station worker.1).turn worker.2
  (s.modify worker.1 fun _ => station).arrive worker.1.other out

instance : World Stack (Side × Job) where
  clock := fun s => s.mobile.relay.clock
  workers := workers
  isReady := fun s worker => (s.station worker.1).isReady worker.2
  takesEvent := fun s worker => (s.station worker.1).takesEvent worker.2
  isCalled := fun s worker => (s.station worker.1).isCalled worker.2
  turn := turn
  alarm? := fun s worker => (s.station worker.1).alarm? worker.2
  elapse := fun s duration =>
    { s with mobile := s.mobile.elapse duration, centre := s.centre.elapse duration }
  turns := fun s => s.mobile.relay.turns + s.mobile.control.turns + s.centre.relay.turns +
    s.centre.control.turns

/-- Starts a request that someone waits for. -/
def request (s : Stack) (side : Side) (label : String) (r : Relay.Request) : Stack :=
  let (id, relay) := (s.station side).relay.start (.request r)
  { s.modify side (fun t => { t with relay }) with
    labels := s.labels ++ [(side, id, label)] }

/-- Gives up all tasks with a name. -/
def abandon (s : Stack) (label : String) : Stack :=
  (s.labels.filter fun l => l.2.2 = label && (s.station l.1).relay.tasks.contains l.2.1).foldl
    (fun s l => s.modify l.1 fun t => t.abandon l.2.1) s

/-- Does something. -/
def act (s : Schedule Stack (Side × Job)) : StackAction → Schedule Stack (Side × Job)
  | .request side label r => s.update (s.world.request side label r)
  | .application side message memory delay =>
    s.update (s.world.modify side fun t =>
      let a := t.control.application
      { t with control := { t.control with application :=
        ⟨message.getD a.message, memory.getD a.memory, delay.getD a.delay⟩ } })
  | .wire side failure => s.update (s.world.modify side fun t => { t with wire := failure })
  | .lose side count => s.update (s.world.modify side fun t => { t with losing := count })
  | .arrive side octets => s.update (s.world.arrive side [octets])
  | .abort label => s.update (s.world.abandon label)
  | .advance duration => s.advance duration

/-- What is seen now. -/
def look (s : Stack) : StackObservation :=
  { time := World.clock s
    done := s.labels.filterMap fun l =>
      ((s.station l.1).relay.ended.lookup l.2.1).map fun ending => (l.2.2, ending)
    mobile := s.mobile
    centre := s.centre }

/-- The stack after a look at it. -/
def cleared (s : Stack) : Stack :=
  { s with mobile := s.mobile.cleared, centre := s.centre.cleared }

/-- Goes through the steps, and says what is seen after each. -/
def observeAll (s : Schedule Stack (Side × Job)) : List StackAction → List StackObservation
  | [] => []
  | action :: rest =>
    let s := (act s action).settle
    s.world.look :: observeAll { s with world := s.world.cleared } rest

/-- Goes through the steps from the beginning. -/
def runAll (s : Stack) (steps : List StackAction) : List StackObservation :=
  observeAll { world := s } steps

end Stack

end ShortMessage.Simulation
