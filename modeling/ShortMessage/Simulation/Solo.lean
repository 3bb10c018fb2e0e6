import ShortMessage.Simulation.Bench
import ShortMessage.Simulation.World

/-!
# One entity alone

An entity on its bench with a transport that takes every message or, while it is set up to fail,
none.  `Solo.runAll` goes through steps of actions; after each step all tasks run until they wait,
and an `Observation` says what has been seen.  Within a step no task runs between two actions,
unless an action takes time.
-/

namespace ShortMessage.Simulation

open Transaction (TaskId Move)

/-- An entity with its application and its transport. -/
structure Solo (σ ι π ρ : Type) extends Bench σ ι π ρ where
  /-- What the transport fails with, while it fails. -/
  wire : Option Failure := none
  /-- The names of the tasks that someone waits for, in the order of their start. -/
  labels : List (TaskId × String) := []

/-- What someone does to an entity. -/
inductive Action (ι : Type) where
  /-- Starts tasks that someone waits for, all with one name. -/
  | start (label : String) (count : Nat) (input : ι)
  /-- Hands in something and waits until it is done. -/
  | perform (input : ι)
  /-- Could not make what was to be handed in. -/
  | cannot (fault : Fault)
  /-- Sets up what the application says, or how long it takes. -/
  | application (message : Option Service.Outcome) (memory : Option (Except Failure Unit))
      (delay : Option Nat)
  /-- Makes the transport fail, or work again. -/
  | wire (failure : Option Failure)
  /-- Gives up all tasks with a name. -/
  | abort (label : String)
  /-- Lets time go on. -/
  | advance (duration : Nat)
  deriving Repr

/-- What is said to whoever does something. -/
inductive Response where
  | nothing
  | done (outcome : Except Failure Unit)
  | cannot (fault : Fault)
  deriving Repr

/-- What is seen after a step. -/
structure Observation (σ π ρ : Type) where
  responses : List Response
  emitted : List (Emission π)
  calls : List CallRecord
  /-- Tasks that have ended, with their names, in the order of their start. -/
  done : List (String × Ending ρ)
  entity : σ

namespace Solo

variable {σ ι π ρ : Type} [Driven σ ι π ρ]

/-- The transport takes a message or fails. -/
def transmit (s : Solo σ ι π ρ) (emission : TaskId × π) : Solo σ ι π ρ :=
  let b := s.toBench.record emission.2 s.wire.isNone
  { s with toBench := b.deliver emission.1 (match s.wire with
      | none => .ok ()
      | some failure => .error failure) }

/-- A task makes a move. -/
def move? (s : Solo σ ι π ρ) (id : TaskId) : Option (Solo σ ι π ρ) :=
  (s.toBench.advance? id).map fun (b, emitted) => emitted.foldl transmit { s with toBench := b }

/-- A task makes up to `n` moves that take up no event. -/
def goOn : Nat → Solo σ ι π ρ → TaskId → Solo σ ι π ρ
  | 0, s, _ => s
  | n + 1, s, id =>
    if s.toBench.takesEvent id then s
    else
      match s.move? id with
      | some s => goOn n s id
      | none => s

/-- A task takes up an event, if it has waited for one, and does all that follows. -/
def turn (s : Solo σ ι π ρ) (id : TaskId) : Solo σ ι π ρ :=
  match s.move? id with
  | some s => goOn Bench.movesPerTurn s id
  | none => s

instance : World (Solo σ ι π ρ) TaskId where
  clock := fun s => s.toBench.clock
  workers := fun s => s.toBench.tasks
  isReady := fun s => s.toBench.isReady
  takesEvent := fun s => s.toBench.takesEvent
  isCalled := fun s => s.toBench.isCalled
  turn := turn
  alarm? := fun s => s.toBench.alarm?
  elapse := fun s duration => { s with toBench := s.toBench.elapse duration }
  turns := fun s => s.toBench.turns

/-- Starts a task that someone waits for. -/
def startNamed (label : String) (input : ι) (s : Solo σ ι π ρ) : Solo σ ι π ρ :=
  let (id, b) := s.toBench.start input
  { s with toBench := b, labels := s.labels ++ [(id, label)] }

/-- Hands in something and waits until it is done.  What it may have to wait for is the answer of
the application. -/
def perform (s : Schedule (Solo σ ι π ρ) TaskId) (input : ι) :
    Response × Schedule (Solo σ ι π ρ) TaskId :=
  let (id, b) := s.world.toBench.start input
  let s := s.update ({ s.world with toBench := b }.turn id)
  let s := match s.world.toBench.alarm? id with
    | none => s
    | some time =>
      let s := s.advance (time - s.clock)
      s.update (s.world.turn id)
  match s.world.toBench.collect id with
  | (some outcome, b) => (.done outcome, { s with world := { s.world with toBench := b } })
  | (none, _) => (.nothing, s)

/-- Gives up all tasks with a name. -/
def abandon (label : String) (s : Solo σ ι π ρ) : Solo σ ι π ρ :=
  let running := s.toBench.tasks
  let ids := (s.labels.filter fun l => l.2 = label && running.contains l.1).map (·.1)
  { s with abandoned := s.abandoned ++ ids }

/-- Does something. -/
def act (s : Schedule (Solo σ ι π ρ) TaskId) :
    Action ι → Response × Schedule (Solo σ ι π ρ) TaskId
  | .start label count input =>
    (.nothing, s.update (Nat.repeat (startNamed label input) count s.world))
  | .perform input => perform s input
  | .cannot fault => (.cannot fault, s)
  | .application message memory delay =>
    let a := s.world.application
    (.nothing, s.update { s.world with application :=
      ⟨message.getD a.message, memory.getD a.memory, delay.getD a.delay⟩ })
  | .wire failure => (.nothing, s.update { s.world with wire := failure })
  | .abort label => (.nothing, s.update (s.world.abandon label))
  | .advance duration => (.nothing, s.advance duration)

/-- Does some things one after the other. -/
def actAll (s : Schedule (Solo σ ι π ρ) TaskId) :
    List (Action ι) → List Response × Schedule (Solo σ ι π ρ) TaskId
  | [] => ([], s)
  | a :: rest =>
    let (response, s) := act s a
    let (responses, s) := actAll s rest
    (response :: responses, s)

/-- What is seen now. -/
def look (s : Solo σ ι π ρ) (responses : List Response) : Observation σ π ρ :=
  { responses
    emitted := s.toBench.emittedByTransaction
    calls := s.calls
    done := s.labels.filterMap fun l => (s.ended.lookup l.1).map fun ending => (l.2, ending)
    entity := s.entity }

/-- Goes through the steps, and says what is seen after each. -/
def observeAll (s : Schedule (Solo σ ι π ρ) TaskId) :
    List (List (Action ι)) → List (Observation σ π ρ)
  | [] => []
  | step :: rest =>
    let (responses, s) := actAll s step
    let s := s.settle
    let cleared := { s.world with toBench := s.world.toBench.cleared }
    s.world.look responses :: observeAll { s with world := cleared } rest

/-- Goes through the steps from the beginning. -/
def runAll (s : Solo σ ι π ρ) (steps : List (List (Action ι))) : List (Observation σ π ρ) :=
  observeAll { world := s } steps

end Solo

/-- A relay entity alone. -/
abbrev SoloRelay := Solo Relay.Entity Relay.Input Relay.Message Relay.Result

/-- A control entity alone. -/
abbrev SoloControl := Solo Control.Entity Control.Input Control.Message Control.Result

/-- A relay entity before anything has happened. -/
def SoloRelay.ofConfig (config : Relay.Config) (calendar : Timestamp) : SoloRelay :=
  { entity := Relay.Entity.ofConfig config, calendar }

/-- A control entity before anything has happened. -/
def SoloControl.ofConfig (config : Control.Config) (calendar : Timestamp) : SoloControl :=
  { entity := Control.Entity.ofConfig config, calendar }

end ShortMessage.Simulation
