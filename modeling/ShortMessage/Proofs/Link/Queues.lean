import ShortMessage.Proofs.Link.Sides

/-!
# What a step does to what is on the way

Only the task that looks at the oldest message takes anything off the queue of its party
(`Side.queue_of_looked`, `Side.queue_of_not_looking`), and what is emitted is put behind what is on
the way to the other party (`Side.lane_await`).
-/

namespace ShortMessage.Link

open Control Transaction

/-- Does a task look at something that has come in? -/
def looking : Task → Bool
  | .receiving (.arrived _) | .receiving (.opening _ _) => true
  | _ => false

/-- Only the message that came in last is looked at. -/
def Prompt (s : Side) : Prop :=
  ∀ ⦃id task⦄, s.entity.task? id = some task → looking task = true →
    s.latest = some id ∧ ∃ sender, s.origin id = some sender

namespace Side

variable {s s' : Side} {id : TaskId} {task : Task} {move : Move Input} {cause : Option TaskId}
  {inbound : List Parcel} {e : Entity} {t : TransactionId}

theorem item?_eq_none (h : ∀ task, s.entity.task? id = some task → looking task = false) :
    s.item? id = none := by
  unfold item?
  split
  · rename_i ht _
    cases h _ ht
  · rename_i ht _
    cases h _ ht
  · rfl

theorem item?_congr (htask : s'.entity.task? id = s.entity.task? id)
    (horigin : s'.origin id = s.origin id) : s'.item? id = s.item? id := by
  unfold item?
  rw [htask, horigin]

theorem head?_of_arrived (hp : Prompt s) {m : Control.Message}
    (ht : s.entity.task? id = some (.receiving (.arrived m))) :
    ∃ sender, s.origin id = some sender ∧ s.head? = some (.message sender m) := by
  obtain ⟨hlatest, sender, horigin⟩ := hp ht rfl
  refine ⟨sender, horigin, ?_⟩
  simp [head?, hlatest, item?, ht, horigin]

theorem head?_of_opening (hp : Prompt s) {r : Relay.Message}
    (ht : s.entity.task? id = some (.receiving (.opening t r))) :
    ∃ sender, s.origin id = some sender ∧ s.head? = some (.request sender t r) := by
  obtain ⟨hlatest, sender, horigin⟩ := hp ht rfl
  refine ⟨sender, horigin, ?_⟩
  simp [head?, hlatest, item?, ht, horigin]

theorem head?_congr (hlatest : s'.latest = s.latest)
    (hitem : ∀ id, s.latest = some id → s'.item? id = s.item? id) : s'.head? = s.head? := by
  unfold head?
  rw [hlatest]
  cases hl : s.latest with
  | none => rfl
  | some id => exact hitem id hl

theorem queue_of_head? {item : Item} (h : s.head? = some item) :
    s.queue = item :: s.inbound.map Item.ofParcel := by
  rw [queue, h]
  rfl

theorem lane_congr (h : s'.queue = s.queue) (t : TransactionId) : s'.lane t = s.lane t := by
  unfold lane
  rw [h]

theorem lane_of_queue {item : Item} {rest : List Item} (h : s.queue = item :: rest) :
    s.lane t = if item.transaction = t then item :: rest.filter (·.transaction = t)
      else rest.filter (·.transaction = t) := by
  unfold lane
  rw [h, List.filter_cons]
  simp

/-- What looks at an item is done with it, or goes on with another one of the same transaction. -/
theorem lanes_of_looked {item : Item} {rest : List Item} (hqueue : s.queue = item :: rest)
    (hqueue' : s'.queue = rest ∨
      ∃ item', item'.transaction = item.transaction ∧ s'.queue = item' :: rest) :
    (∀ t, t ≠ item.transaction → s'.lane t = s.lane t) ∧
      ∀ x ∈ s'.queue, ∃ x' ∈ s.queue, x'.transaction = x.transaction := by
  rcases hqueue' with hqueue' | ⟨item', htr, hqueue'⟩
  · refine ⟨fun t hne => ?_, fun x hx => ⟨x, ?_, rfl⟩⟩
    · rw [lane_of_queue hqueue, if_neg (Ne.symm hne), lane, hqueue']
    · rw [hqueue'] at hx
      rw [hqueue]
      exact List.mem_cons_of_mem _ hx
  · refine ⟨fun t hne => ?_, fun x hx => ?_⟩
    · rw [lane_of_queue hqueue, if_neg (Ne.symm hne), lane_of_queue hqueue',
        if_neg (htr ▸ Ne.symm hne)]
    · rw [hqueue] at *
      rw [hqueue'] at hx
      rcases List.mem_cons.1 hx with rfl | hx
      · exact ⟨item, List.mem_cons_self, htr.symm⟩
      · exact ⟨x, List.mem_cons_of_mem _ hx, rfl⟩

/-- What is emitted goes behind what is on the way. -/
theorem queue_await (s : Side) (ps : List Parcel) :
    (s.await ps).queue = s.queue ++ ps.map Item.ofParcel := by
  have hhead : (s.await ps).head? = s.head? := rfl
  unfold queue
  rw [hhead, List.append_assoc]
  show _ ++ (s.inbound ++ ps).map _ = _
  rw [List.map_append]

theorem lane_await (s : Side) (ps : List Parcel) (t : TransactionId) :
    (s.await ps).lane t = s.lane t ++ (ps.map Item.ofParcel).filter (·.transaction = t) := by
  unfold lane
  rw [queue_await, List.filter_append]

/-! ## The party that makes the move -/

theorem origin_advance (ho : s.entity.Orderly) (ht : s.entity.task? id = some task) :
    (s.advance move cause inbound e).origin id = s.origin id :=
  if_neg (Nat.ne_of_lt (ho.lt_started ht))

theorem latest_advance (hmove : ∀ m, move ≠ .start (.receive m)) :
    (s.advance move cause inbound e).latest = s.latest := by
  unfold advance
  split
  · rename_i m
    exact absurd rfl (hmove m)
  · rfl

/-- A step that leaves what is looked at alone. -/
theorem queue_of_not_looking (ho : s.entity.Orderly) (hmove : ∀ m, move ≠ .start (.receive m))
    (htask : ∀ id task, looking task = true →
      (e.task? id = some task ↔ s.entity.task? id = some task)) :
    (s.advance move cause s.inbound e).queue = s.queue := by
  have hhead : (s.advance move cause s.inbound e).head? = s.head? := by
    refine head?_congr (latest_advance hmove) fun id _ => ?_
    by_cases hlook : ∃ task, s.entity.task? id = some task ∧ looking task = true
    · obtain ⟨task, ht, hl⟩ := hlook
      exact item?_congr (((htask id task hl).2 ht).trans ht.symm) (origin_advance ho ht)
    · have hnone : ∀ task, s.entity.task? id = some task → looking task = false := by
        intro task ht
        cases hl : looking task with
        | false => rfl
        | true => exact absurd ⟨task, ht, hl⟩ hlook
      rw [item?_eq_none hnone]
      refine item?_eq_none fun task ht => ?_
      cases hl : looking task with
      | false => rfl
      | true => exact absurd ⟨task, (htask id task hl).1 ht, hl⟩ hlook
  unfold queue
  rw [hhead]
  rfl

/-- The task that looks at a message ends, or goes on to something else. -/
theorem queue_of_looked (hmove : ∀ m, move ≠ .start (.receive m)) (hlatest : s.latest = some id)
    (htask : ∀ task, e.task? id = some task → looking task = false) :
    (s.advance move cause s.inbound e).queue = s.inbound.map Item.ofParcel := by
  have hhead : (s.advance move cause s.inbound e).head? = none := by
    rw [head?, latest_advance hmove, hlatest]
    exact item?_eq_none htask
  unfold queue
  rw [hhead]
  rfl

/-- The task that looks at a request has read it. -/
theorem queue_of_opening (hmove : ∀ m, move ≠ .start (.receive m)) (hlatest : s.latest = some id)
    {sender : TaskId} {r : Relay.Message}
    (horigin : (s.advance move cause s.inbound e).origin id = some sender)
    (htask : e.task? id = some (.receiving (.opening t r))) :
    (s.advance move cause s.inbound e).queue =
      .request sender t r :: s.inbound.map Item.ofParcel := by
  refine queue_of_head? ?_
  have htask' : (s.advance move cause s.inbound e).entity.task? id =
      some (.receiving (.opening t r)) := htask
  rw [head?, latest_advance hmove, hlatest, Option.bind_some, item?, htask', horigin]

/-- A message that is handed over is looked at, where it was the oldest one on the way before. -/
theorem queue_of_start (ho : s.entity.Orderly) (hready : s.isReady = true) {parcel : Parcel}
    {rest : List Parcel} (hinbound : s.inbound = parcel :: rest) :
    (s.advance (.start (.receive parcel.message)) (some parcel.sender) rest
      (s.entity.spawn (.receiving (.arrived parcel.message)))).queue = s.queue := by
  have hnone : s.head? = none := by
    unfold head?
    cases hl : s.latest with
    | none => rfl
    | some id =>
      refine item?_eq_none fun task ht => ?_
      unfold isReady at hready
      rw [hl, Option.bind_some, ht] at hready
      cases task with
      | receiving r => cases r <;> first | rfl | cases hready
      | _ => rfl
  have htask : (s.entity.spawn (.receiving (.arrived parcel.message))).task? s.entity.started =
      some (.receiving (.arrived parcel.message)) := by
    rw [ho.task?_spawn, if_pos rfl]
  have hhead : (s.advance (.start (.receive parcel.message)) (some parcel.sender) rest
      (s.entity.spawn (.receiving (.arrived parcel.message)))).head? =
        some (Item.ofParcel parcel) := by
    show item? _ s.entity.started = _
    simp only [item?, advance, htask, if_true]
    rfl
  rw [queue_of_head? hhead, queue, hnone, hinbound]
  rfl

end Side

/-! ## Promptness is kept -/

section

variable {s : Side} {id : TaskId} {move : Move Input} {cause : Option TaskId}
  {inbound : List Parcel} {e : Entity} {task : Task} {task' : Option Task}
  {outgoing incoming : Table Control.Message Unit} {events : List (Event Control.Message Result)}

theorem Prompt.await (hp : Prompt s) (ps : List Parcel) : Prompt (s.await ps) := hp

/-- Nothing new is looked at. -/
theorem Prompt.advance (hp : Prompt s) (ho : s.entity.Orderly)
    (hmove : ∀ m, move ≠ .start (.receive m))
    (htask : ∀ id task, looking task = true → e.task? id = some task →
      ∃ task, s.entity.task? id = some task ∧ looking task = true) :
    Prompt (s.advance move cause inbound e) := by
  intro id task ht hl
  obtain ⟨task0, ht0, hl0⟩ := htask id task hl ht
  obtain ⟨hlatest, sender, horigin⟩ := hp ht0 hl0
  rw [Side.latest_advance hmove, Side.origin_advance ho ht0]
  exact ⟨hlatest, sender, horigin⟩

/-- A task looks at something only after it has looked at a message. -/
theorem Act.looking (ha : Entity.Act e id move task task' outgoing incoming events)
    (hread : ∀ octets, task ≠ .receiving (.octets octets)) {x : Task} (hx : task' = some x)
    (hl : looking x = true) : looking task = true := by
  cases ha with
  | lookedAt => rfl
  | read => exact absurd rfl (hread _)
  | _ => cases hx <;> cases hl

end

end ShortMessage.Link
