import ShortMessage.Proofs.Control.Rules

/-!
# Tasks and their transactions

* `Act.outgoing_change`, `Act.incoming_change` — what a step does to the transactions of each side
  is a `Change` by the lease of the task, or a message is posted;
* `Entity.Orderly` — new task numbers are unused, and the transactions of each side are those of the
  tasks; kept by every step (`Orderly.step`).
-/

namespace ShortMessage.Control

open Transaction (TaskId Table Lease Move Event Accounts Change)

namespace Entity

variable {e e' : Entity} {id j : TaskId} {events : List (Event Message Result)}

/-! ## Tasks and their transactions -/

/-- The lease of a task among the transactions of this side. -/
def leaseOut? (e : Entity) (id : TaskId) : Option Lease := (e.task? id).bind outgoingLease?

/-- The lease of a task among the transactions of the other side. -/
def leaseIn? (e : Entity) (id : TaskId) : Option Lease := (e.task? id).bind incomingLease?

section

variable {move : Move Input} {task : Task} {task' : Option Task}
  {outgoing incoming : Table Message Unit}

theorem leaseOut?_eq (h : e.task? id = some task) : e.leaseOut? id = outgoingLease? task := by
  simp [leaseOut?, h]

theorem leaseIn?_eq (h : e.task? id = some task) : e.leaseIn? id = incomingLease? task := by
  simp [leaseIn?, h]

/-- A step changes which transaction its own task has, and that of no other. -/
theorem leaseOut?_settle (h : e.task? id = some task) (j : TaskId) :
    (e.settle id task' outgoing incoming).leaseOut? j =
      if j = id then task'.bind outgoingLease? else e.leaseOut? j := by
  unfold leaseOut?
  rw [task?_settle _ _ _ h]
  split <;> rfl

theorem leaseIn?_settle (h : e.task? id = some task) (j : TaskId) :
    (e.settle id task' outgoing incoming).leaseIn? j =
      if j = id then task'.bind incomingLease? else e.leaseIn? j := by
  unfold leaseIn?
  rw [task?_settle _ _ _ h]
  split <;> rfl

theorem Follow.lease {s : Session} {confirmed : Bool} {m : Message} {phase : Sending}
    {word : Option Message} (hf : Follow e s confirmed m phase word) :
    outgoingLease? (.sending phase) = some s.lease := by
  cases hf <;> rfl

theorem change_without (t : Table Message Unit) (l : Option Lease) :
    Change t l none (without t l) := by
  cases l with
  | none => exact .keep
  | some l => exact .drop

/-- The transactions of this side change by what the task does with its own, or a message of the
other side is posted. -/
theorem Act.outgoing_change (ha : Act e id move task task' outgoing incoming events)
    (hs : e.outgoing.Sound) :
    Change e.outgoing (outgoingLease? task) (task'.bind outgoingLease?) outgoing ∨
      ∃ m, task = .receiving (.arrived m) ∧ m.transaction.flag = true ∧
        e.outgoing.post m.transaction.value.toNat m = .ok outgoing ∧ move = .run id ∧
        events = [.returned id (.received (.ok ()))] ∧ task' = none ∧ incoming = e.incoming := by
  cases ha with
  | opened hl | unwritable hl => exact .inl (.lease (hs.leased_of_lease? hl))
  | delivered ht hf | took ht hf =>
    refine .inl ?_
    rw [Option.bind_some, hf.lease]
    exact .take ht
  | tookLate ht hf =>
    refine .inl ?_
    rw [Option.bind_some, hf.lease]
    exact .retire
  | tookNothing ht => exact .inl .retire
  | closed => exact .inl .drop
  | posted hflag hp => exact .inr ⟨_, rfl, hflag, hp, rfl, rfl, rfl, rfl⟩
  | aborted => exact .inl (change_without _ _)
  | _ => exact .inl .keep

/-- The transactions of the other side change by what the task does with its own, or a message is
posted. -/
theorem Act.incoming_change (ha : Act e id move task task' outgoing incoming events)
    (hs : e.incoming.Sound) :
    Change e.incoming (incomingLease? task) (task'.bind incomingLease?) incoming ∨
      ∃ m, task = .receiving (.arrived m) ∧ m.transaction.flag = false ∧
        e.incoming.post m.transaction.value.toNat m = .ok incoming ∧ move = .run id ∧
        events = [.returned id (.received (.ok ()))] ∧ task' = none ∧ outgoing = e.outgoing := by
  cases ha with
  | delivered ht hf | took ht hf | tookLate ht hf => cases hf <;> exact .inl .keep
  | confirmed ht => exact .inl (.take ht)
  | served | withdrawn => exact .inl .drop
  | accepted hl => exact .inl (.lease (hs.leased_of_leaseAt? hl).1)
  | postedIncoming hflag hd hp => exact .inr ⟨_, rfl, hflag, hp, rfl, rfl, rfl, rfl⟩
  | aborted => exact .inl (change_without _ _)
  | _ => exact .inl .keep

end

/-- New task numbers are unused, and the transactions of each side are those of its tasks. -/
structure Orderly (e : Entity) : Prop where
  fresh : ∀ {id}, e.started ≤ id → e.task? id = none
  outgoing_length : e.outgoing.slots.length = transactionCount
  incoming_length : e.incoming.slots.length = transactionCount
  outgoing : Accounts e.outgoing e.leaseOut?
  incoming : Accounts e.incoming e.leaseIn?
  /-- Data that is on its way has its transaction. -/
  held : ∀ {id s handover}, e.task? id = some (.sending (.delivering s handover)) →
    e.outgoing.isReleased s.lease = false
  /-- A request of the other side keeps its transaction to the end. -/
  kept : ∀ {id lease}, e.leaseIn? id = some lease → e.incoming.isReleased lease = false

theorem Orderly.lt_started (h : e.Orderly) {task : Task} (ht : e.task? id = some task) :
    id < e.started := by
  refine Nat.lt_of_not_le fun hge => ?_
  rw [h.fresh hge] at ht
  cases ht

theorem orderly_ofConfig (config : Config) : (ofConfig config).Orderly :=
  ⟨fun _ => rfl, by simp [ofConfig, Table.idle], by simp [ofConfig, Table.idle],
    Accounts.idle _ _, Accounts.idle _ _, by rintro _ _ _ ⟨⟩, by rintro _ _ ⟨⟩⟩

section

variable {move : Move Input} {task : Task} {task' : Option Task}
  {outgoing incoming : Table Message Unit}

/-- What other tasks have on this side stays, except that messages are posted to it. -/
theorem Orderly.outgoing_of_ne (h : e.Orderly) (ht : e.task? id = some task)
    (ha : Act e id move task task' outgoing incoming events) {lease : Lease}
    (hj : e.leaseOut? j = some lease) (hne : j ≠ id) :
    outgoing.isReleased lease = e.outgoing.isReleased lease ∧
      ∀ i key, outgoing.holder? i = some ⟨lease, key⟩ ↔ e.outgoing.holder? i = some ⟨lease, key⟩ := by
  obtain hc | ⟨m, -, -, hp, -⟩ := ha.outgoing_change h.outgoing.sound
  · obtain ⟨hm, hh⟩ := h.outgoing.of_ne hc (leaseOut?_eq ht) hj hne
    exact ⟨by unfold Table.isReleased; rw [hm], hh⟩
  · exact ⟨Table.isReleased_postIf hp _, fun i key => by rw [Table.holder?_postIf hp]⟩

theorem Orderly.incoming_of_ne (h : e.Orderly) (ht : e.task? id = some task)
    (ha : Act e id move task task' outgoing incoming events) {lease : Lease}
    (hj : e.leaseIn? j = some lease) (hne : j ≠ id) :
    incoming.isReleased lease = e.incoming.isReleased lease ∧
      ∀ i key, incoming.holder? i = some ⟨lease, key⟩ ↔ e.incoming.holder? i = some ⟨lease, key⟩ := by
  obtain hc | ⟨m, -, -, hp, -⟩ := ha.incoming_change h.incoming.sound
  · obtain ⟨hm, hh⟩ := h.incoming.of_ne hc (leaseIn?_eq ht) hj hne
    exact ⟨by unfold Table.isReleased; rw [hm], hh⟩
  · exact ⟨Table.isReleased_postIf hp _, fun i key => by rw [Table.holder?_postIf hp]⟩

/-- A task that goes on delivering has not given its transaction up. -/
theorem Act.held (h : e.Orderly) (ht : e.task? id = some task)
    (ha : Act e id move task (some (.sending (.delivering s handover))) outgoing incoming events) :
    outgoing.isReleased s.lease = false := by
  generalize hk : some (Task.sending (.delivering s handover)) = task' at ha
  cases ha with
  | opened hl =>
    cases hk
    rw [(h.outgoing.sound.leased_of_lease? hl).isReleased, if_pos rfl]
  | transmitted => cases hk; exact h.held ht
  | repeated => cases hk; exact h.held ht
  | delivered ht hf | took ht hf | tookLate ht hf => cases hf <;> cases hk
  | _ => cases hk

/-- A task that goes on serving has not given its transaction up. -/
theorem Act.kept (h : e.Orderly) (ht : e.task? id = some task)
    (ha : Act e id move task task' outgoing incoming events) {lease : Lease}
    (hl : task'.bind incomingLease? = some lease) : incoming.isReleased lease = false := by
  have hsame : incomingLease? task = some lease → e.incoming.isReleased lease = false :=
    fun hl => h.kept ((leaseIn?_eq ht).trans hl)
  cases ha with
  | delivered ht hf | took ht hf | tookLate ht hf => cases hf <;> cases hl
  | confirmed htake =>
    cases hl
    rw [Table.isReleased_take? htake]
    exact hsame rfl
  | accepted hl' =>
    cases hl
    rw [(h.incoming.sound.leased_of_leaseAt? hl').1.isReleased, if_pos rfl]
  | called | uncalled | replied | unreplied | replyTransmitted | replyUntransmitted |
    refusalTransmitted | replyRepeated | replyGivenUp | unaccepted => exact hsame hl
  | _ => cases hl

theorem Orderly.act (h : e.Orderly) (ht : e.task? id = some task)
    (ha : Act e id move task task' outgoing incoming events) :
    (e.settle id task' outgoing incoming).Orderly := by
  have hout : outgoing.slots.length = e.outgoing.slots.length := by
    obtain hc | ⟨m, -, -, hp, -⟩ := ha.outgoing_change h.outgoing.sound
    · exact hc.length
    · exact Table.length_postIf hp
  have hin : incoming.slots.length = e.incoming.slots.length := by
    obtain hc | ⟨m, -, -, hp, -⟩ := ha.incoming_change h.incoming.sound
    · exact hc.length
    · exact Table.length_postIf hp
  refine ⟨fun {j} hj => ?_, ?_, ?_, ?_, ?_, fun {j s handover} hj => ?_, fun {j lease} hj => ?_⟩
  · rw [started_settle] at hj
    rw [task?_settle _ _ _ ht, if_neg]
    · exact h.fresh hj
    · rintro rfl
      exact absurd (h.lt_started ht) (Nat.not_lt.2 hj)
  · rw [outgoing_settle, hout, h.outgoing_length]
  · rw [incoming_settle, hin, h.incoming_length]
  · rw [outgoing_settle]
    obtain hc | ⟨m, rfl, -, hp, -, -, rfl, -⟩ := ha.outgoing_change h.outgoing.sound
    · exact h.outgoing.change hc (leaseOut?_eq ht) (leaseOut?_settle ht)
    · refine (h.outgoing.postIf hp).congr fun j => ?_
      rw [leaseOut?_settle ht]
      split
      · rename_i hj
        rw [hj, leaseOut?_eq ht]
        rfl
      · rfl
  · rw [incoming_settle]
    obtain hc | ⟨m, rfl, -, hp, -, -, rfl, -⟩ := ha.incoming_change h.incoming.sound
    · exact h.incoming.change hc (leaseIn?_eq ht) (leaseIn?_settle ht)
    · refine (h.incoming.postIf hp).congr fun j => ?_
      rw [leaseIn?_settle ht]
      split
      · rename_i hj
        rw [hj, leaseIn?_eq ht]
        rfl
      · rfl
  · rw [task?_settle _ _ _ ht] at hj
    rw [outgoing_settle]
    split at hj
    · subst hj
      exact ha.held h ht
    · rename_i hne
      rw [(h.outgoing_of_ne ht ha (leaseOut?_eq hj) hne).1]
      exact h.held hj
  · rw [leaseIn?_settle ht] at hj
    rw [incoming_settle]
    split at hj
    · exact ha.kept h ht hj
    · rename_i hne
      rw [(h.incoming_of_ne ht ha hj hne).1]
      exact h.kept hj

/-- A new task has a number that no task has. -/
theorem Orderly.task?_spawn (h : e.Orderly) (task : Task) (j : TaskId) :
    (e.spawn task).task? j = if j = e.started then some task else e.task? j := by
  rw [Entity.task?_spawn]
  split
  · rename_i hj
    rw [hj, h.fresh (Nat.le_refl _), Option.none_or]
  · rw [Option.or_none]

theorem Orderly.leaseOut?_spawn (h : e.Orderly) (hout : outgoingLease? task = none) (j : TaskId) :
    (e.spawn task).leaseOut? j = e.leaseOut? j := by
  unfold leaseOut?
  rw [h.task?_spawn]
  split
  · rename_i hj
    rw [hj, h.fresh (Nat.le_refl _)]
    exact hout
  · rfl

theorem Orderly.leaseIn?_spawn (h : e.Orderly) (hin : incomingLease? task = none) (j : TaskId) :
    (e.spawn task).leaseIn? j = e.leaseIn? j := by
  unfold leaseIn?
  rw [h.task?_spawn]
  split
  · rename_i hj
    rw [hj, h.fresh (Nat.le_refl _)]
    exact hin
  · rfl

/-- A task that is new has no transaction. -/
theorem Orderly.spawn (h : e.Orderly) (hout : outgoingLease? task = none)
    (hin : incomingLease? task = none) : (e.spawn task).Orderly := by
  have htask := h.task?_spawn task
  refine ⟨fun {j} hj => ?_, h.outgoing_length, h.incoming_length,
    h.outgoing.congr (h.leaseOut?_spawn hout), h.incoming.congr (h.leaseIn?_spawn hin),
    fun {j s handover} hj => ?_, fun {j lease} hj => ?_⟩
  · have hlt : e.started < j := hj
    rw [htask, if_neg (Nat.ne_of_gt hlt)]
    exact h.fresh (Nat.le_of_lt hlt)
  · rw [htask] at hj
    split at hj
    · cases hj
      cases hout
    · exact h.held hj
  · rw [h.leaseIn?_spawn hin] at hj
    exact h.kept hj

section

variable {service : Service} (h : e.Orderly)
  (ht : e.task? id = some (.receiving (.accepting service)))

include h ht

theorem Orderly.task?_handedOver (j : TaskId) :
    ((e.spawn (.serving (.accepted service))).remove id).task? j =
      if j = e.started then some (.serving (.accepted service))
      else if j = id then none else e.task? j := by
  have hne : e.started ≠ id := Nat.ne_of_gt (h.lt_started ht)
  rw [task?_remove, h.task?_spawn]
  by_cases hj : j = e.started
  · rw [if_pos hj, if_pos hj, hj, if_neg hne]
  · rw [if_neg hj, if_neg hj]

theorem Orderly.leaseOut?_handedOver (j : TaskId) :
    ((e.spawn (.serving (.accepted service))).remove id).leaseOut? j = e.leaseOut? j := by
  unfold leaseOut?
  rw [h.task?_handedOver ht]
  split
  · rename_i hj
    rw [hj, h.fresh (Nat.le_refl _)]
    rfl
  · split
    · rename_i hj
      rw [hj, ht]
      rfl
    · rfl

theorem Orderly.leaseIn?_handedOver (j : TaskId) :
    ((e.spawn (.serving (.accepted service))).remove id).leaseIn? j =
      if j = e.started then some service.lease else if j = id then none else e.leaseIn? j := by
  unfold leaseIn?
  rw [h.task?_handedOver ht]
  split
  · rfl
  · split <;> rfl

/-- The new task gets the transaction of the task that received the request. -/
theorem Orderly.handedOver : ((e.spawn (.serving (.accepted service))).remove id).Orderly := by
  have htask := h.task?_handedOver ht
  have hheir : e.leaseIn? e.started = none := by simp [leaseIn?, h.fresh (Nat.le_refl _)]
  refine ⟨fun {j} hj => ?_, h.outgoing_length, h.incoming_length,
    h.outgoing.congr (h.leaseOut?_handedOver ht),
    h.incoming.handOver (leaseIn?_eq ht) hheir (h.leaseIn?_handedOver ht),
    fun {j s handover} hj => ?_, fun {j lease} hj => ?_⟩
  · have hlt : e.started < j := hj
    rw [htask, if_neg (Nat.ne_of_gt hlt)]
    split
    · rfl
    · exact h.fresh (Nat.le_of_lt hlt)
  · rw [htask] at hj
    split at hj
    · cases hj
    · split at hj
      · cases hj
      · exact h.held hj
  · rw [h.leaseIn?_handedOver ht] at hj
    split at hj
    · cases hj
      exact h.kept (leaseIn?_eq ht)
    · split at hj
      · cases hj
      · exact h.kept hj

end

/-- No step leaves an entity in disorder. -/
theorem Orderly.step (h : e.Orderly) (hr : Rule e move e' events) : e'.Orderly := by
  cases hr with
  | start input => exact h.spawn (by cases input <;> rfl) (by cases input <;> rfl)
  | act ht ha => exact h.act ht ha
  | handedOver ht => exact h.handedOver ht
  | elapsed duration =>
    exact ⟨h.fresh, h.outgoing_length, h.incoming_length, h.outgoing, h.incoming, h.held, h.kept⟩

end

end Entity

end ShortMessage.Control
