import ShortMessage.Proofs.Codec.Relay
import ShortMessage.Proofs.Link.System
import ShortMessage.Proofs.Transaction.Tenants

/-!
# One transaction, seen from both parties

Every message names a transaction, so that the two parties and the wires between them fall apart
into sixteen lines, one for each transaction of each party.  `Stage c s n` lists what there can be
on the line of the transaction `n` of the party `c` with the other party `s`.

Two things meet there: the request that has the transaction now (`Open`), and what is left at the
other party of the request that had it before (`Tail`).  As long as there is a tail nobody there
looks at the request, and what belongs to the tail is on the way in front of it (`Trailing`); after
that the request is served (`Live`).
-/

namespace ShortMessage.Link

open Control Transaction

/-! ## What is on the way -/

/-- What is on the way to a party, or is just being looked at there. -/
inductive Item where
  | message (sender : TaskId) (m : Control.Message)
  /-- A request that has been read but not accepted. -/
  | request (sender : TaskId) (t : TransactionId) (r : Relay.Message)
  deriving DecidableEq, Repr

namespace Item

/-- The transaction of an item. -/
def transaction : Item → TransactionId
  | message _ m => m.transaction
  | request _ t _ => t

/-- The message that an item is. -/
def said? : Item → Option Control.Message
  | message _ m => some m
  | request _ _ _ => none

/-- A parcel as an item. -/
def ofParcel (x : Parcel) : Item := .message x.sender x.message

end Item

/-- The transaction `n` as the party that opens it names it. -/
def own (n : Nat) : TransactionId := ⟨false, UInt8.ofNat n⟩

/-- The transaction `n` as the other party names it. -/
def other (n : Nat) : TransactionId := ⟨true, UInt8.ofNat n⟩

namespace Side

/-- What a task looks at. -/
def item? (s : Side) (id : TaskId) : Option Item :=
  match s.entity.task? id, s.origin id with
  | some (.receiving (.arrived m)), some sender => some (.message sender m)
  | some (.receiving (.opening t r)), some sender => some (.request sender t r)
  | _, _ => none

/-- What is being looked at. -/
def head? (s : Side) : Option Item := s.latest.bind s.item?

/-- What is being looked at, and then what is on the way. -/
def queue (s : Side) : List Item := s.head?.toList ++ s.inbound.map Item.ofParcel

/-- What the queue has for one transaction. -/
def lane (s : Side) (t : TransactionId) : List Item := s.queue.filter (·.transaction = t)

/-- The messages that are on the way back on the transaction `n`. -/
def down (s : Side) (n : Nat) : List Control.Message := (s.lane (other n)).filterMap Item.said?

end Side

/-! ## The tasks of a line -/

/-- A task sends on the transaction `n`, and these messages wait for it. -/
def Client (e : Entity) (n : Nat) (id : TaskId) (phase : Sending) (mail : List Control.Message) :
    Prop := e.task? id = some (.sending phase) ∧ Tenant e.outgoing e.leaseOut? n id mail

/-- A task serves the transaction `n` of the other party, and these messages wait for it. -/
def Server (e : Entity) (n : Nat) (id : TaskId) (task : Task) (box : List Control.Message) : Prop :=
  e.task? id = some task ∧ Tenant e.incoming e.leaseIn? n id box

/-- What a history says of the tasks of a party. -/
structure Memory where
  asked : TaskId → Option Relay.Message
  story : TaskId → List Entry
  emitted : TaskId → List Control.Message

/-- The memory of a party. -/
def memory (h : List Passage) (p : Party) : Memory :=
  ⟨message? (steps h p), story h p, emissions (steps h p)⟩

/-- A request that listens for what comes back: all of `heard`, or all behind the first, still has
to be taken. -/
inductive Listening (s : Session) (heard : List Control.Message) :
    Sending → List Control.Message → Prop where
  | delivering {handover} : Listening s heard (.delivering s handover) heard
  | awaiting {deadline m rest} : heard = m :: rest → Listening s heard (.awaitingAnswer s deadline) rest

/-- The task `i` of the party `c` has an open request on the transaction `n`, and `heard` is all
that the other party has said there. -/
structure Open (mem : Memory) (c : Side) (n : Nat) (i : TaskId) (s : Session)
    (heard : List Control.Message) : Prop where
  client : ∃ phase mail, Client c.entity n i phase mail ∧ Listening s heard phase (mail ++ c.down n)
  asked : mem.asked i = some s.message
  isRequest : s.message.isRequest = true
  data : ∃ octets, s.message.encode = .ok octets ∧ s.data = .data (own n) octets

/-- What is left at the party `s` of a request of the other one that is over, and what is on the
way for it. -/
inductive Tail (s : Side) (n : Nat) : List Item → Prop where
  | gone : Vacant s.entity.leaseIn? n → Tail s n []
  /-- The acknowledgement of the answer is on its way. -/
  | unacknowledged {j lease data handover k} :
      Server s.entity n j (.serving (.delivering lease data handover)) [] →
      Tail s n [.message k (.ack (own n))]
  | acknowledged {j lease data handover m} :
      Server s.entity n j (.serving (.delivering lease data handover)) [m] → Tail s n []
  | refusing {j lease} : Server s.entity n j (.serving (.refusing lease)) [] → Tail s n []
  | closing {j lease} : Server s.entity n j (.serving (.closing lease)) [] → Tail s n []

/-- What the party `c` has on the transaction `n` while the other one has not yet looked at its
request or is done with it; `front` belongs to the tail there, and `back` is behind it. -/
inductive Trailing (mem : Memory) (c : Side) (n : Nat) : List Item → List Item → Prop where
  | idle {front} : Vacant c.entity.leaseOut? n → c.down n = [] → Trailing mem c n front []
  | requested {front i s} : Open mem c n i s [] → mem.story i = [] →
      Trailing mem c n front [.message i s.data]
  | refused {i s cause} : Open mem c n i s [.ack (other n), .error (other n) cause] →
      Decision s.message (mem.story i) (.error (.control cause)) → Trailing mem c n [] []
  | passedOver {i s j} : Open mem c n i s [.ack (other n)] → mem.story i = [.passedOver j] →
      Trailing mem c n [] []
  | ended {front i phase outcome m} : Client c.entity n i phase [] →
      phase.outcome? = some outcome → c.down n = [] → mem.asked i = some m →
      m.isRequest = true → Verdict m (mem.story i) (mem.emitted i) outcome →
      Trailing mem c n front []

/-- A task of the party `s` serves a request. -/
structure Serves (s : Side) (i : TaskId) (m : Relay.Message) (n : Nat) (j : TaskId)
    (service : Control.Service) : Prop where
  origin : s.origin j = some i
  reads : Reads m service.request
  isRequest : service.request.isRequest = true
  transaction : service.transaction = other n

/-- The party `s` looks at a request of the party `c` on the transaction `n`, or serves it. -/
inductive Live (mem : Memory) (c s : Side) (n : Nat) : Prop where
  | looked {i sess request} : Open mem c n i sess [] → mem.story i = [] →
      Vacant s.entity.leaseIn? n → s.lane (own n) = [.request i (own n) request] →
      Reads sess.message request → request.isRequest = true → Live mem c s n
  | accepting {i sess j service} : Open mem c n i sess [.ack (other n)] → mem.story i = [] →
      Server s.entity n j (.receiving (.accepting service)) [] → s.lane (own n) = [] →
      Serves s i sess.message n j service → Live mem c s n
  | accepted {i sess j service} : Open mem c n i sess [.ack (other n)] → mem.story i = [] →
      Server s.entity n j (.serving (.accepted service)) [] → s.lane (own n) = [] →
      Serves s i sess.message n j service → Live mem c s n
  | handling {i sess j service call} : Open mem c n i sess [.ack (other n)] →
      mem.story i = [.called j call] → Server s.entity n j (.serving (.handling service)) [] →
      s.lane (own n) = [] → Serves s i sess.message n j service →
      Service.call? service.request = some call → Live mem c s n
  | replied {i sess j lease octets reply handover} :
      Open mem c n i sess [.ack (other n), .data (other n) octets] →
      Server s.entity n j
        (.serving (.delivering lease (.data (other n) octets) handover)) [] →
      s.lane (own n) = [] → judgeAnswer sess.message octets = .ok reply →
      Decision sess.message (mem.story i) (.ok (some reply)) → Live mem c s n

/-- What there can be on the line of the transaction `n` of the party `c`. -/
inductive Stage (mem : Memory) (c s : Side) (n : Nat) : Prop where
  | trailing {front back} : Tail s n front → s.lane (own n) = front ++ back →
      Trailing mem c n front back → Stage mem c s n
  | live : Live mem c s n → Stage mem c s n

end ShortMessage.Link
