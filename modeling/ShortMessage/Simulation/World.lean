/-!
# Time in a simulation

A `World` is made of workers that take turns on one clock.  The clock stands still while any worker
has something to do.  A `Schedule` keeps the workers that are ready in a queue, first come, first
served, and remembers who began to wait for a time before whom: `settle` lets the workers take
turns until all wait, and `advance` then moves the clock from one awaited time to the next and
settles the world at each, up to the end of the time that is to go by: there it leaves the workers
in the queue.

The worker in front of the queue takes turns until it has to wait.  One that never has to, because
there is always another event for it, stands back after `patience` events until all others wait.
-/

namespace ShortMessage.Simulation

/-- Events that a worker takes up before it lets all others go first. -/
def patience : Nat := 128

/-- A state `ω` with workers `ν`. -/
class World (ω : Type) (ν : outParam Type) where
  /-- Milliseconds since the beginning. -/
  clock : ω → Nat
  /-- The workers.  Those that become ready by the same event line up in this order. -/
  workers : ω → List ν
  /-- Has a worker something to do now? -/
  isReady : ω → ν → Bool
  /-- Does the next turn of a worker take up an event that it has waited for? -/
  takesEvent : ω → ν → Bool
  /-- Is there something for a worker to which it comes back after it has stood back? -/
  isCalled : ω → ν → Bool
  /-- A worker that is ready takes up one event, and does all that follows from it. -/
  turn : ω → ν → ω
  /-- The time for which a worker waits. -/
  alarm? : ω → ν → Option Nat
  /-- The clock goes on by some milliseconds. -/
  elapse : ω → Nat → ω
  /-- A number of turns after which no worker has anything left to do. -/
  turns : ω → Nat

/-- A world, and the order in which its workers came to be ready or to wait. -/
structure Schedule (ω ν : Type) where
  world : ω
  /-- Workers that are ready, the first to become so in front. -/
  queue : List ν := []
  /-- Workers that have stood back, the last to do so in front. -/
  resting : List ν := []
  /-- Workers that wait for a time, the first to begin in front. -/
  alarms : List (ν × Nat) := []

namespace Schedule

variable {ω ν : Type} [World ω ν] [BEq ν]

/-- The clock of the world. -/
def clock (s : Schedule ω ν) : Nat := World.clock s.world

/-- Workers that have become ready join the queue, and those that stand back if they are called. -/
def lineUp (s : Schedule ω ν) : Schedule ω ν :=
  let ready := (World.workers s.world).filter fun v =>
    !s.queue.contains v && World.isReady s.world v &&
      (!s.resting.contains v || World.isCalled s.world v)
  { s with queue := s.queue ++ ready }

/-- A worker begins anew to wait for a time, or stops waiting. -/
def setAlarm (s : Schedule ω ν) (v : ν) : Schedule ω ν :=
  { s with alarms := s.alarms.filter (fun a => !(a.1 == v)) ++
      ((World.alarm? s.world v).map (v, ·)).toList }

/-- The world has been changed from outside. -/
def update (s : Schedule ω ν) (world : ω) : Schedule ω ν :=
  let fresh := (World.workers world).filter fun v => !s.alarms.any (·.1 == v)
  (fresh.foldl setAlarm { s with world }).lineUp

/-- A worker takes a turn. -/
def takeTurn (s : Schedule ω ν) (v : ν) : Schedule ω ν :=
  ({ s with world := World.turn s.world v }.setAlarm v).lineUp

/-- All that stand back join the queue, the last one first. -/
def rejoin (s : Schedule ω ν) : Schedule ω ν :=
  let back := s.resting.eraseDups.filter fun v => !s.queue.contains v
  { s with queue := s.queue ++ back, resting := [] }

/-- Up to `n` times the first in the queue, which has taken up `taken` events, takes a turn, or
leaves because it has to wait or has lost its patience. -/
def settleWithin : Nat → Nat → Schedule ω ν → Schedule ω ν
  | 0, _, s => s
  | n + 1, taken, s =>
    match s.queue with
    | [] => if s.resting.isEmpty then s else settleWithin n 0 s.rejoin
    | v :: queue =>
      if patience ≤ taken then settleWithin n 0 { s with queue, resting := v :: s.resting }
      else if World.isReady s.world v then
        settleWithin n (if World.takesEvent s.world v then taken + 1 else taken) (s.takeTurn v)
      else settleWithin n 0 { s with queue }

/-- Lets the workers take turns until all wait. -/
def settle (s : Schedule ω ν) : Schedule ω ν := settleWithin (World.turns s.world) 0 s.lineUp

/-- The clock goes on, and those whose time has come line up. -/
def elapse (s : Schedule ω ν) (duration : Nat) : Schedule ω ν :=
  let world := World.elapse s.world duration
  let (due, alarms) := s.alarms.partition fun a => a.2 ≤ World.clock world
  { s with world, alarms, queue := s.queue ++ due.map Prod.fst }

/-- The next time for which a worker waits. -/
def nextTime? (s : Schedule ω ν) : Option Nat :=
  ((s.alarms.map (·.2)).filter (s.clock < ·)).min?

/-- At most `n` times the clock goes on to the next awaited time and all is settled there, until
it has come to `target`. -/
def advanceWithin (target : Nat) : Nat → Schedule ω ν → Schedule ω ν
  | 0, s => s
  | n + 1, s =>
    match s.nextTime?.filter (· < target) with
    | some time => advanceWithin target n (s.elapse (time - s.clock)).settle
    | none => s.elapse (target - s.clock)

/-- Lets some milliseconds go by.  Each awaited time on the way lies after the one before, so there
are fewer of them than milliseconds.  Whoever has let the time go by is the first to do something at
its end: those whose time comes then have lined up, and have not taken a turn. -/
def advance (s : Schedule ω ν) (duration : Nat) : Schedule ω ν :=
  if duration = 0 then s else advanceWithin (s.clock + duration) duration s.settle

end Schedule

end ShortMessage.Simulation
