import ShortMessage.Proofs.Control.Tasks

/-!
# Two entities, joined

Two control entities talk over wires that lose nothing and keep the order.  A `State` has a `Side`
for each party: its entity, what is on the way to it, and for each task the task of the other party
whose message it was started for.  In a step one party makes a move (`step?`): transports never
fail, no timer runs down and no task is given up.  Requests are sent at any time and on any
transaction, tasks run in any order, and the application says what it likes.

A message is handed to the entity when it is the oldest on the way and the one before it has been
looked at; the tasks that look at messages then run like any others.

* `steps` — what one party does in a history, as a history of its entity;
* `story` — what becomes of a request at the other party;
* `Verdict` — what a request comes to, given its story.
-/

namespace ShortMessage.Link

open Control Transaction

/-! ## The system -/

/-- The two parties. -/
inductive Party where
  | first
  | second
  deriving DecidableEq, Repr

/-- The other party. -/
def Party.peer : Party → Party
  | .first => .second
  | .second => .first

/-- A message on its way, and the task that emitted it. -/
structure Parcel where
  sender : TaskId
  message : Control.Message
  deriving DecidableEq, Repr

/-- A party. -/
structure Side where
  entity : Entity
  /-- What is on the way to the party, the oldest first. -/
  inbound : List Parcel := []
  /-- The task of the other party whose message a task was started for, or is served for. -/
  origin : TaskId → Option TaskId := fun _ => none
  /-- The task for the message that came in last. -/
  latest : Option TaskId := none

/-- Both parties. -/
abbrev State := Party → Side

/-- A move of a party. -/
abbrev Deed := Party × Move Input

namespace Side

/-- Has the message that came in last been looked at? -/
def isReady (s : Side) : Bool :=
  match s.latest.bind s.entity.task? with
  | some (.receiving (.arrived _)) | some (.receiving (.opening _ _)) => false
  | _ => true

/-- For a move that may be made, the task of the other party that a task which it starts stems
from, and what is on the way after it. -/
def admits? (s : Side) : Move Input → Option (Option TaskId × List Parcel)
  | .start (.send m) => if m.isRequest then some (none, s.inbound) else none
  | .start (.receive m) =>
    match s.inbound with
    | parcel :: rest =>
      if s.isReady ∧ parcel.message = m then some (some parcel.sender, rest) else none
    | [] => none
  | .run id | .sent id (.ok ()) | .answered id _ _ => some (s.origin id, s.inbound)
  | .elapse _ => some (none, s.inbound)
  | _ => none

/-- A party after a move of its own. -/
def advance (s : Side) (move : Move Input) (cause : Option TaskId) (inbound : List Parcel)
    (e : Entity) : Side where
  entity := e
  inbound := inbound
  origin := fun j => if j = s.entity.started then cause else s.origin j
  latest := match move with
    | .start (.receive _) => some s.entity.started
    | _ => s.latest

/-- A party after more is on the way to it. -/
def await (s : Side) (parcels : List Parcel) : Side := { s with inbound := s.inbound ++ parcels }

end Side

/-- What is emitted. -/
def parcels (events : List (Event Control.Message Result)) : List Parcel :=
  events.filterMap fun
    | .emitted id m => some ⟨id, m⟩
    | _ => none

/-- What a move of a party does, and what others see of it. -/
def step? (l : State) (d : Deed) : Option (State × List (Event Control.Message Result)) :=
  match (l d.1).admits? d.2 with
  | none => none
  | some (cause, inbound) =>
    match (l d.1).entity.step? d.2 with
    | none => none
    | some (e, events) => some (fun p =>
        if p = d.1 then (l p).advance d.2 cause inbound e else (l p).await (parcels events), events)

/-- Two parties that have done nothing yet. -/
def ofConfigs (config : Party → Config) : State := fun p => { entity := Entity.ofConfig (config p) }

/-! ## Histories -/

/-- A step of the system. -/
abbrev Passage := Transition State Deed (Event Control.Message Result)

/-- A step as one of a party's entity. -/
def local? (p : Party) (tr : Passage) : Option Transit :=
  if tr.move.1 = p then some ⟨(tr.before p).entity, tr.move.2, tr.events, (tr.after p).entity⟩
  else none

/-- What a party does in a history. -/
def steps (h : List Passage) (p : Party) : List Transit := h.filterMap (local? p)

/-- What can become of a request at the other party. -/
inductive Entry where
  /-- The application is asked. -/
  | called (task : TaskId) (call : Service.Call)
  /-- The application has answered. -/
  | decided (task : TaskId) (outcome : Service.Outcome) (now : Timestamp)
  /-- The request is taken for a repetition of an earlier one, and acknowledged as such. -/
  | passedOver (task : TaskId)
  deriving DecidableEq, Repr

/-- What happens to a request when a task takes a step for it. -/
def happening (s : Side) (j : TaskId) (move : Move Input)
    (events : List (Event Control.Message Result)) : Option Entry :=
  match move, events with
  | .answered _ outcome now, _ => some (.decided j outcome now)
  | .run _, [.called _ call] => some (.called j call)
  | .run _, _ =>
    match s.entity.task? j with
    | some (.receiving (.arrived (.data t _))) =>
      if t.flag = false ∧ s.entity.incoming.isHeld t.value.toNat then some (.passedOver j) else none
    | _ => none
  | _, _ => none

/-- What happens in a step to what the task `id` of `p` has sent. -/
def entryIn? (p : Party) (id : TaskId) (tr : Passage) : Option Entry :=
  if tr.move.1 = p.peer then
    (actor? tr.move.2).bind fun j =>
      if (tr.before p.peer).origin j = some id then
        happening (tr.before p.peer) j tr.move.2 tr.events
      else none
  else none

/-- All that becomes of what the task `id` of `p` has sent. -/
def story (h : List Passage) (p : Party) (id : TaskId) : List Entry := h.filterMap (entryIn? p id)

/-! ## What requests come to -/

/-- The other party reads `request` where `m` was sent. -/
def Reads (m request : Relay.Message) : Prop :=
  ∃ octets, m.encode = .ok octets ∧ Relay.Message.ofOctets octets = .ok request

/-- The application was asked once for what was sent, and this is what it said. -/
structure Handled (m : Relay.Message) (story : List Entry) (request : Relay.Message)
    (outcome : Service.Outcome) (now : Timestamp) : Prop where
  reads : Reads m request
  story_eq : ∃ j call, Service.call? request = some call ∧
    story = [.called j call, .decided j outcome now]

/-- The cause that is told when there is no answer: that of the application if it has one. -/
def refusalCause : Service.Outcome → Control.Cause
  | .error failure => failure.controlCause?.getD .protocolError
  | .ok _ => .protocolError

/-- What the application's outcome makes of the request `m`. -/
inductive Decision (m : Relay.Message) (story : List Entry) : Outcome → Prop where
  /-- The answer is what is read of what the outcome is written as. -/
  | answered {request outcome now answer octets reply} : Handled m story request outcome now →
      Service.answer request outcome now = .ok answer → answer.encode = .ok octets →
      Relay.Message.ofOctets octets = .ok reply → Decision m story (.ok (some reply))
  /-- There is no answer, or none that can be written. -/
  | refused {request outcome now} : Handled m story request outcome now →
      (∀ answer, Service.answer request outcome now = .ok answer →
        ∃ fault, answer.encode = .error fault) →
      Decision m story (.error (.control (refusalCause outcome)))

/-- What the request `m` comes to, given what became of it and what was emitted for it. -/
inductive Verdict (m : Relay.Message) (story : List Entry) (emitted : List Control.Message) :
    Outcome → Prop where
  /-- No transaction is free. -/
  | congested : story = [] → emitted = [] → Verdict m story emitted (.error (.relayCause .congestion))
  /-- The request cannot be written. -/
  | unwritable {fault} : m.encode = .error fault → story = [] → emitted = [] →
      Verdict m story emitted (.error (.codec fault))
  /-- The application of the other party has decided. -/
  | decided {outcome} : Decision m story outcome → Verdict m story emitted outcome

/-! ## Steps -/

@[simp] theorem Party.peer_peer (p : Party) : p.peer.peer = p := by cases p <;> rfl

theorem Party.peer_ne (p : Party) : p.peer ≠ p := by cases p <;> decide

theorem Party.eq_or (p q : Party) : q = p ∨ q = p.peer := by cases p <;> cases q <;> decide

/-- The parties after a step. -/
theorem step?_eq_some {l l' : State} {p : Party} {move : Move Input}
    {events : List (Event Control.Message Result)} (h : step? l (p, move) = some (l', events)) :
    ∃ cause inbound e, (l p).admits? move = some (cause, inbound) ∧
      Entity.Rule (l p).entity move e events ∧ l' p = (l p).advance move cause inbound e ∧
      l' p.peer = (l p.peer).await (parcels events) := by
  unfold step? at h
  split at h
  · cases h
  · rename_i cause inbound hadmits
    split at h
    · cases h
    · rename_i e events' hstep
      cases h
      exact ⟨cause, inbound, e, hadmits, Entity.rule_of_step? hstep, if_pos rfl,
        if_neg (Party.peer_ne p)⟩

section

variable {h : List Passage} {tr : Passage} {p : Party} {id : TaskId}

theorem steps_snoc : steps (h ++ [tr]) p = steps h p ++ (local? p tr).toList :=
  filterMap_snoc _

theorem steps_snoc_of_eq (hp : tr.move.1 = p) : steps (h ++ [tr]) p =
    steps h p ++ [⟨(tr.before p).entity, tr.move.2, tr.events, (tr.after p).entity⟩] := by
  rw [steps_snoc, local?, if_pos hp]
  rfl

/-- A step of the other party adds nothing to what a party does. -/
theorem steps_snoc_of_ne (hp : tr.move.1 ≠ p) : steps (h ++ [tr]) p = steps h p := by
  rw [steps_snoc, local?, if_neg hp]
  exact List.append_nil _

/-- Each step adds at most one entry to what becomes of a request. -/
theorem story_snoc : story (h ++ [tr]) p id = story h p id ++ (entryIn? p id tr).toList :=
  filterMap_snoc _

theorem story_snoc_of_none (he : entryIn? p id tr = none) : story (h ++ [tr]) p id = story h p id := by
  rw [story_snoc, he]
  exact List.append_nil _

theorem story_snoc_of_some {entry : Entry} (he : entryIn? p id tr = some entry) :
    story (h ++ [tr]) p id = story h p id ++ [entry] := by
  rw [story_snoc, he]
  rfl

end

/-- What a party does is a run of its entity. -/
theorem run_steps {l l' : State} {h : List Passage} (hrun : Run step? l h l') (p : Party) :
    Run Entity.step? (l p).entity (steps h p) (l' p).entity := by
  induction hrun with
  | rest => exact .rest
  | @step h t u d events _ hs ih =>
    unfold step? at hs
    split at hs
    · cases hs
    · split at hs
      · cases hs
      · rename_i e events' hstep
        cases hs
        by_cases hp : d.1 = p
        · subst hp
          rw [steps_snoc_of_eq rfl]
          simp only [if_true]
          exact .step ih hstep
        · rw [steps_snoc_of_ne hp]
          simp only [if_neg (Ne.symm hp)]
          exact ih

end ShortMessage.Link
