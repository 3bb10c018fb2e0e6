/-!
# Slots for transactions

A protocol entity runs at most as many transactions at a time as there are identifiers.  A table
has one slot for each identifier.  A transaction *leases* a slot, together with a key that says
which events it wants, and *drops* the lease when it ends.  While it holds the slot, events for the
identifier are *posted* to its mailbox, a few at most, and it *takes* them in order.

A transaction that has waited long enough *retires*: the slot is idle again at once, but the
mailbox stays with the transaction, so that an event posted just before is not lost.  A slot may
have another owner while the mailbox of an earlier one is still around, so every lease has a serial
number that no other lease of the table has.
-/

namespace ShortMessage.Transaction

/-- Events that wait for a transaction before others are turned away. -/
def mailboxDepth : Nat := 4

/-- What a transaction has to show for its slot. -/
structure Lease where
  serial : Nat
  index : Nat
  deriving DecidableEq, Repr

/-- The owner of a slot. -/
structure Holder (κ : Type) where
  lease : Lease
  key : κ
  deriving DecidableEq, Repr

/-- The events for one lease, the oldest first. -/
structure Mailbox (ε : Type) where
  lease : Lease
  queue : List ε := []
  /-- Has the slot been given up already? -/
  released : Bool := false
  deriving DecidableEq, Repr

/-- The slots, where the next search begins, and the mailboxes of all leases not yet dropped. -/
structure Table (ε κ : Type) where
  slots : List (Option (Holder κ))
  cursor : Nat
  mailboxes : List (Mailbox ε) := []
  /-- Leases ever made. -/
  issued : Nat := 0
  deriving DecidableEq, Repr

/-- An event that was turned away. -/
inductive Undelivered (ε : Type) where
  /-- The slot is idle or its mailbox is full. -/
  | noOwner (event : ε)
  /-- The owner's key refuses the event. -/
  | refused (event : ε)
  deriving DecidableEq, Repr

namespace Table

variable {ε κ : Type}

/-- A table of idle slots. -/
def idle (capacity cursor : Nat) : Table ε κ :=
  { slots := List.replicate capacity none, cursor := cursor % max capacity 1 }

/-- Is there a slot with this index, and is it idle? -/
def isIdle (t : Table ε κ) (index : Nat) : Bool :=
  match t.slots[index]? with
  | some none => true
  | _ => false

/-- Does the slot with this index have an owner? -/
def isHeld (t : Table ε κ) (index : Nat) : Bool :=
  match t.slots[index]? with
  | some (some _) => true
  | _ => false

/-- How many slots are idle. -/
def idleCount (t : Table ε κ) : Nat := t.slots.countP Option.isNone

/-! ## Leasing -/

/-- Gives a slot to a new lease. -/
def occupy (t : Table ε κ) (index : Nat) (key : κ) : Lease × Table ε κ :=
  let lease : Lease := ⟨t.issued, index⟩
  (lease, { t with
    slots := t.slots.set index (some ⟨lease, key⟩)
    mailboxes := t.mailboxes ++ [{ lease }]
    issued := t.issued + 1 })

/-- All indices, in the order in which a search looks at them. -/
def searchOrder (t : Table ε κ) : List Nat :=
  (List.range t.slots.length).map fun offset => (t.cursor + offset) % t.slots.length

/-- Leases the first idle slot at or after the cursor; the next search begins behind it. -/
def lease? (t : Table ε κ) (key : κ) : Option (Lease × Table ε κ) :=
  (t.searchOrder.find? t.isIdle).map fun index =>
    occupy { t with cursor := (index + 1) % t.slots.length } index key

/-- Leases the slot with this index, if it is idle. -/
def leaseAt? (t : Table ε κ) (index : Nat) (key : κ) : Option (Lease × Table ε κ) :=
  if t.isIdle index then some (t.occupy index key) else none

/-! ## Mailboxes -/

/-- The mailbox of a lease. -/
def mailbox? (t : Table ε κ) (lease : Lease) : Option (Mailbox ε) :=
  t.mailboxes.find? (·.lease = lease)

/-- Changes the mailbox of a lease. -/
def modifyMailbox (t : Table ε κ) (lease : Lease) (change : Mailbox ε → Mailbox ε) : Table ε κ :=
  { t with mailboxes := t.mailboxes.map fun m => if m.lease = lease then change m else m }

/-- Posts an event to the owner of a slot, if the owner's key accepts it. -/
def postIf (t : Table ε κ) (index : Nat) (event : ε) (accepts : κ → ε → Bool) :
    Except (Undelivered ε) (Table ε κ) :=
  match t.slots[index]? with
  | some (some holder) =>
    if accepts holder.key event then
      match t.mailbox? holder.lease with
      | some m =>
        if m.queue.length < mailboxDepth then
          .ok (t.modifyMailbox holder.lease fun m => { m with queue := m.queue ++ [event] })
        else .error (.noOwner event)
      | none => .error (.noOwner event)
    else .error (.refused event)
  | _ => .error (.noOwner event)

/-- Posts an event to the owner of a slot. -/
def post (t : Table ε κ) (index : Nat) (event : ε) : Except (Undelivered ε) (Table ε κ) :=
  t.postIf index event fun _ _ => true

/-- The events that a lease has not taken yet. -/
def pending (t : Table ε κ) (lease : Lease) : List ε :=
  match t.mailbox? lease with
  | some m => m.queue
  | none => []

/-- Takes the oldest event of a lease. -/
def take? (t : Table ε κ) (lease : Lease) : Option (ε × Table ε κ) :=
  match t.pending lease with
  | [] => none
  | event :: _ => some (event, t.modifyMailbox lease fun m => { m with queue := m.queue.tail })

/-- Has a lease been released? -/
def isReleased (t : Table ε κ) (lease : Lease) : Bool :=
  match t.mailbox? lease with
  | some m => m.released
  | none => true

/-! ## Giving a slot back -/

/-- Makes the slot of a lease idle, unless the lease was released before. -/
def release (t : Table ε κ) (lease : Lease) : Table ε κ :=
  if t.isReleased lease then t
  else { t with slots := t.slots.set lease.index none }.modifyMailbox lease fun m =>
    { m with released := true }

/-- Takes the oldest event of a lease, if there is one, and makes its slot idle. -/
def retire (t : Table ε κ) (lease : Lease) : Option ε × Table ε κ :=
  match t.take? lease with
  | some (event, t) => (some event, t.release lease)
  | none => (none, t.release lease)

/-- Gives up a lease, its slot and its mailbox. -/
def drop (t : Table ε κ) (lease : Lease) : Table ε κ :=
  let t := t.release lease
  { t with mailboxes := t.mailboxes.filter (·.lease ≠ lease) }

end Table

end ShortMessage.Transaction
