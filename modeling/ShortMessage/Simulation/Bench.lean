import ShortMessage.Control.Entity
import ShortMessage.Relay.Entity

/-!
# An entity on the bench

A `Bench` holds one entity and plays its application: it writes down what the entity asks and
answers as the application is set up to, at once or after a delay.  What the entity hands to its
transport is left to whoever drives the bench.  `Driven` is what a bench needs to know of an entity.
-/

namespace ShortMessage.Simulation

open Transaction (TaskId Move Event)

/-- An entity `σ` that accepts inputs `ι`, emits messages `π` and whose tasks end with `ρ`. -/
class Driven (σ : Type) (ι π ρ : outParam Type) where
  step? : σ → Move ι → Option (σ × List (Event π ρ))
  clock : σ → Nat
  /-- The running tasks, the oldest first. -/
  tasks : σ → List TaskId
  /-- The number of the next task. -/
  nextTask : σ → TaskId
  /-- The time at which a task stops waiting. -/
  deadline? : σ → TaskId → Option Nat
  /-- What ties messages to a transaction: only messages of one transaction have an order. -/
  transaction : π → Nat
  /-- What a task that nobody waits for says to the one who started it. -/
  verdict : ρ → Except Failure Unit
  /-- How often a message may be repeated without time going on. -/
  repetitions : σ → Nat

instance : Driven Relay.Entity Relay.Input Relay.Message Relay.Result where
  step? := Relay.Entity.step?
  clock := Relay.Entity.clock
  tasks := fun e => e.tasks.map (·.1)
  nextTask := Relay.Entity.started
  deadline? := Relay.Entity.deadline?
  transaction := fun m => m.reference.toNat
  verdict := fun r => match r with
    | .indicated outcome => outcome
    | .requested outcome => outcome.map fun _ => ()
  repetitions := fun _ => 0

instance : Driven Control.Entity Control.Input Control.Message Control.Result where
  step? := Control.Entity.step?
  clock := Control.Entity.clock
  tasks := fun e => e.tasks.map (·.1)
  nextTask := Control.Entity.started
  deadline? := Control.Entity.deadline?
  transaction := fun m => m.transaction.flag.toNat * 256 + m.transaction.value.toNat
  verdict := fun r => match r with
    | .received outcome => outcome
    | .sent outcome => outcome.map fun _ => ()
    | .served => .ok ()
  repetitions := fun e => e.config.maxRetransmissions

/-- How the application behaves. -/
structure Application where
  /-- What it says to a message. -/
  message : Service.Outcome := .ok none
  /-- What it says when the other side has memory again. -/
  memory : Except Failure Unit := .ok ()
  /-- Milliseconds until it says it. -/
  delay : Nat := 0
  deriving Repr

/-- What the application says to a call. -/
def Application.outcome (a : Application) : Service.Call → Service.Outcome
  | .message _ => a.message
  | .memoryAvailable => a.memory.map fun _ => none

/-- A message that an entity handed to its transport. -/
structure Emission (π : Type) where
  time : Nat
  message : π
  /-- Did the transport take it? -/
  sent : Bool
  deriving Repr

/-- Something that an entity asked of its application. -/
structure CallRecord where
  time : Nat
  call : Service.Call
  deriving Repr

/-- How a task ended. -/
inductive Ending (ρ : Type) where
  | returned (result : ρ)
  | aborted
  deriving Repr

/-- What the application is going to say to a task. -/
structure Reply where
  task : TaskId
  asked : Nat
  due : Nat
  outcome : Service.Outcome
  deriving Repr

/-- An entity, its application, and what has been seen of it since the last look. -/
structure Bench (σ ι π ρ : Type) where
  entity : σ
  /-- The time that the calendar shows. -/
  calendar : Timestamp
  application : Application := {}
  /-- What the transport has to say to tasks. -/
  delivered : List (TaskId × Except Failure Unit) := []
  /-- What the application has to say to tasks. -/
  replies : List Reply := []
  /-- Tasks that are to be given up. -/
  abandoned : List TaskId := []
  emitted : List (Emission π) := []
  calls : List CallRecord := []
  ended : List (TaskId × Ending ρ) := []

namespace Bench

variable {σ ι π ρ : Type} [Driven σ ι π ρ]

/-- The clock of the entity. -/
def clock (b : Bench σ ι π ρ) : Nat := Driven.clock b.entity

/-- The next move of a task, and the bench without what the move uses up.  Being given up comes
first, and an event before the timer. -/
def nextMove? (b : Bench σ ι π ρ) (id : TaskId) : Option (Move ι × Bench σ ι π ρ) :=
  if b.abandoned.contains id then
    some (.abort id, { b with abandoned := b.abandoned.filter (· ≠ id) })
  else
    match b.delivered.lookup id with
    | some result =>
      some (.sent id result, { b with delivered := b.delivered.filter (·.1 ≠ id) })
    | none =>
      if (Driven.step? b.entity (.run id)).isSome then some (.run id, b)
      else
        match b.replies.find? fun r => r.task = id && r.due ≤ b.clock with
        | some reply =>
          some (.answered id reply.outcome b.calendar,
            { b with replies := b.replies.filter (·.task ≠ id) })
        | none =>
          match Driven.deadline? b.entity id with
          | some deadline => if deadline ≤ b.clock then some (.expire id, b) else none
          | none => none

/-- Writes down what was seen of a move, and leaves out what was emitted. -/
def observe (b : Bench σ ι π ρ) : Event π ρ → Bench σ ι π ρ
  | .emitted _ _ => b
  | .called id call => { b with
      calls := b.calls ++ [⟨b.clock, call⟩]
      replies := b.replies ++
        [⟨id, b.clock, b.clock + b.application.delay, b.application.outcome call⟩] }
  | .returned id result => { b with ended := b.ended ++ [(id, .returned result)] }

/-- What was emitted. -/
def emissions (events : List (Event π ρ)) : List (TaskId × π) :=
  events.filterMap fun event => match event with
    | .emitted id m => some (id, m)
    | _ => none

/-- A task makes its next move.  What it hands to the transport is still to be dealt with. -/
def advance? (b : Bench σ ι π ρ) (id : TaskId) : Option (Bench σ ι π ρ × List (TaskId × π)) :=
  match b.nextMove? id with
  | none => none
  | some (move, b) =>
    match Driven.step? b.entity move with
    | none => some (b, [])
    | some (entity, events) =>
      let b := events.foldl observe { b with entity }
      let b := match move with
        | .abort id => { b with
            ended := b.ended ++ [(id, .aborted)]
            delivered := b.delivered.filter (·.1 ≠ id)
            replies := b.replies.filter (·.task ≠ id) }
        | _ => b
      some (b, emissions events)

/-- The transport has something to say to a task. -/
def deliver (b : Bench σ ι π ρ) (id : TaskId) (result : Except Failure Unit) : Bench σ ι π ρ :=
  { b with delivered := b.delivered ++ [(id, result)] }

/-- Writes down what was handed to the transport. -/
def record (b : Bench σ ι π ρ) (message : π) (sent : Bool) : Bench σ ι π ρ :=
  { b with emitted := b.emitted ++ [⟨b.clock, message, sent⟩] }

/-- Starts a task for an input. -/
def start (b : Bench σ ι π ρ) (input : ι) : TaskId × Bench σ ι π ρ :=
  match Driven.step? b.entity (.start input) with
  | some (entity, _) => (Driven.nextTask b.entity, { b with entity })
  | none => (Driven.nextTask b.entity, b)

/-- Takes what a task ended with off the record. -/
def collect (b : Bench σ ι π ρ) (id : TaskId) : Option (Except Failure Unit) × Bench σ ι π ρ :=
  match b.ended.lookup id with
  | some (.returned result) =>
    (some (Driven.verdict σ result), { b with ended := b.ended.filter (·.1 ≠ id) })
  | _ => (none, b)

/-- Can a task make a move now? -/
def isReady (b : Bench σ ι π ρ) (id : TaskId) : Bool := (b.nextMove? id).isSome

/-- The running tasks, the oldest first. -/
def tasks (b : Bench σ ι π ρ) : List TaskId := Driven.tasks b.entity

/-- Does the next move of a task take up an event that it has waited for: a message, a time, or
what the application says after a delay? -/
def takesEvent (b : Bench σ ι π ρ) (id : TaskId) : Bool :=
  match b.nextMove? id with
  | some (.run _, _) | some (.expire _, _) => (Driven.deadline? b.entity id).isSome
  | some (.answered _ _ _, _) => b.replies.any fun r => r.task = id && r.asked < r.due
  | _ => false

/-- Has a message come for a task that waits, or is the task to be given up? -/
def isCalled (b : Bench σ ι π ρ) (id : TaskId) : Bool :=
  b.abandoned.contains id || (Driven.step? b.entity (.run id)).isSome

/-- Moves that are enough for all that follows from one event. -/
def movesPerTurn : Nat := 64

/-- Turns that are enough for the tasks that run, those that they start, and what arrives because of
them, until all wait. -/
def turns (b : Bench σ ι π ρ) : Nat :=
  (1024 + 16 * Driven.repetitions b.entity) * (b.tasks.length + 16)

/-- The time for which a task waits. -/
def alarm? (b : Bench σ ι π ρ) (id : TaskId) : Option Nat :=
  match Driven.deadline? b.entity id with
  | some deadline => some deadline
  | none => (b.replies.find? (·.task = id)).map (·.due)

/-- The clock goes on. -/
def elapse (b : Bench σ ι π ρ) (duration : Nat) : Bench σ ι π ρ :=
  match Driven.step? b.entity (.elapse duration) with
  | some (entity, _) => { b with entity }
  | none => b

/-- The bench after a look at it. -/
def cleared (b : Bench σ ι π ρ) : Bench σ ι π ρ := { b with emitted := [], calls := [], ended := [] }

/-- What was emitted, by transaction. -/
def emittedByTransaction (b : Bench σ ι π ρ) : List (Emission π) :=
  b.emitted.mergeSort fun x y =>
    Driven.transaction σ x.message ≤ Driven.transaction σ y.message

end Bench

end ShortMessage.Simulation
