import ShortMessage.Transaction.Service

/-!
# Tasks and their steps

A protocol entity runs many tasks side by side.  A task goes from one point where it has to wait to
the next in atomic steps, each of which touches a table of slots at most once, so that the steps of
different tasks can be interleaved in every order.  `Move` lists what can happen to an entity, and
`Event` what others see of it.
-/

namespace ShortMessage.Transaction

/-- The number of a task. -/
abbrev TaskId := Nat

/-- What can happen to an entity that accepts inputs `ι`. -/
inductive Move (ι : Type) where
  /-- Someone asks the entity for something, which starts a task. -/
  | start (input : ι)
  /-- A task that need not wait takes a step. -/
  | run (task : TaskId)
  /-- The transport is done with what the task handed to it. -/
  | sent (task : TaskId) (result : Except Failure Unit)
  /-- The application is done with what the task asked of it, at this time. -/
  | answered (task : TaskId) (outcome : Service.Outcome) (now : Timestamp)
  /-- The timer of a task that waits for an event in vain has run down. -/
  | expire (task : TaskId)
  /-- A task is given up wherever it is. -/
  | abort (task : TaskId)
  /-- Milliseconds pass. -/
  | elapse (duration : Nat)
  deriving Repr

/-- What others see of an entity that emits messages `π` and whose tasks end with `ρ`. -/
inductive Event (π ρ : Type) where
  /-- A message is handed to the transport. -/
  | emitted (task : TaskId) (message : π)
  /-- Something is asked of the application. -/
  | called (task : TaskId) (call : Service.Call)
  /-- A task has ended. -/
  | returned (task : TaskId) (result : ρ)
  deriving Repr

end ShortMessage.Transaction
