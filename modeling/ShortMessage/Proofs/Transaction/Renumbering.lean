import ShortMessage.Proofs.Transaction.Run
import ShortMessage.Proofs.Transaction.Tasks

/-!
# Numbers are names

Tasks and leases have numbers, and nothing that an entity does depends on which.  A `Numbering` gives
other numbers to tasks and leaves some tasks out; `Table.renumber` gives other serial numbers to the
leases of a table.  Every operation on the list of tasks and on tables comes to the same under the
other numbers, one lemma for each operation.

* `Move.renumber`, `Event.renumber` — what happens, under other numbers;
* `seen` — what others see of a task, and when, without its number.
-/

namespace ShortMessage.Transaction

/-! ## Leases under other serial numbers -/

/-- The lease under another serial number. -/
def Lease.renumber (σ : Nat → Nat) (l : Lease) : Lease := { l with serial := σ l.serial }

/-- The owner of a slot, whose lease has another serial number. -/
def Holder.renumber {κ : Type} (σ : Nat → Nat) (h : Holder κ) : Holder κ :=
  { h with lease := h.lease.renumber σ }

/-- The mailbox of a lease that has another serial number. -/
def Mailbox.renumber {ε : Type} (σ : Nat → Nat) (m : Mailbox ε) : Mailbox ε :=
  { m with lease := m.lease.renumber σ }

/-- The table with other serial numbers. -/
def Table.renumber {ε κ : Type} (σ : Nat → Nat) (t : Table ε κ) : Table ε κ :=
  { t with
    slots := t.slots.map (Option.map (Holder.renumber σ))
    mailboxes := t.mailboxes.map (Mailbox.renumber σ)
    issued := σ t.issued }

section

variable {ε κ : Type} {σ τ : Nat → Nat} {t : Table ε κ} {l l' : Lease} {i : Nat}

@[simp] theorem Lease.renumber_id (l : Lease) : l.renumber id = l := rfl

/-- Other serial numbers tell the same leases apart. -/
theorem Lease.renumber_inj (hσ : Function.Injective σ) : l.renumber σ = l'.renumber σ ↔ l = l' := by
  constructor
  · intro h
    obtain ⟨serial, index⟩ := l
    obtain ⟨serial', index'⟩ := l'
    simp only [renumber, Lease.mk.injEq] at h ⊢
    exact ⟨hσ h.1, h.2⟩
  · rintro rfl
    rfl

namespace Table

@[simp] theorem renumber_id (t : Table ε κ) : t.renumber id = t := by
  have hslots : (Option.map (Holder.renumber id) : Option (Holder κ) → _) = id := by
    funext o
    cases o <;> rfl
  have hmailboxes : (Mailbox.renumber id : Mailbox ε → _) = id := rfl
  simp [renumber, hslots, hmailboxes]

theorem slots_renumber (σ : Nat → Nat) (t : Table ε κ) (i : Nat) :
    (t.renumber σ).slots[i]? = t.slots[i]?.map (Option.map (Holder.renumber σ)) := by
  simp [renumber]

@[simp] theorem isIdle_renumber : (t.renumber σ).isIdle i = t.isIdle i := by
  unfold isIdle
  rw [slots_renumber]
  rcases t.slots[i]? with _ | _ | holder <;> rfl

@[simp] theorem isHeld_renumber : (t.renumber σ).isHeld i = t.isHeld i := by
  unfold isHeld
  rw [slots_renumber]
  rcases t.slots[i]? with _ | _ | holder <;> rfl

theorem mailbox?_renumber (hσ : Function.Injective σ) :
    (t.renumber σ).mailbox? (l.renumber σ) = (t.mailbox? l).map (Mailbox.renumber σ) := by
  unfold mailbox? renumber
  rw [List.find?_map]
  congr 2
  funext m
  simp [Mailbox.renumber, Lease.renumber_inj hσ]

theorem pending_renumber (hσ : Function.Injective σ) :
    (t.renumber σ).pending (l.renumber σ) = t.pending l := by
  unfold pending
  rw [mailbox?_renumber hσ]
  rcases t.mailbox? l with _ | m <;> rfl

theorem isReleased_renumber (hσ : Function.Injective σ) :
    (t.renumber σ).isReleased (l.renumber σ) = t.isReleased l := by
  unfold isReleased
  rw [mailbox?_renumber hσ]
  rcases t.mailbox? l with _ | m <;> rfl

theorem modifyMailbox_renumber (hσ : Function.Injective σ) {change : Mailbox ε → Mailbox ε}
    (hchange : ∀ m, change (m.renumber σ) = (change m).renumber σ) :
    (t.renumber σ).modifyMailbox (l.renumber σ) change = (t.modifyMailbox l change).renumber σ := by
  have hmap (m : Mailbox ε) : (if (m.renumber σ).lease = l.renumber σ then change (m.renumber σ)
      else m.renumber σ) = (if m.lease = l then change m else m).renumber σ := by
    have hsame : (m.renumber σ).lease = l.renumber σ ↔ m.lease = l := Lease.renumber_inj hσ
    by_cases hm : m.lease = l
    · rw [if_pos (hsame.2 hm), if_pos hm, hchange]
    · rw [if_neg (mt hsame.1 hm), if_neg hm]
  simp [modifyMailbox, renumber, hmap]

/-- Posting asks for a slot, a key and room, none of which has to do with serial numbers. -/
theorem postIf_renumber (hσ : Function.Injective σ) (event : ε) (accepts : κ → ε → Bool) :
    (t.renumber σ).postIf i event accepts = (t.postIf i event accepts).map (renumber σ) := by
  unfold postIf
  rw [slots_renumber]
  rcases t.slots[i]? with _ | _ | holder
  · rfl
  · rfl
  · have hmailbox : (t.renumber σ).mailbox? (holder.renumber σ).lease =
        (t.mailbox? holder.lease).map (Mailbox.renumber σ) := mailbox?_renumber hσ
    simp only [Option.map_some, hmailbox]
    by_cases hacc : accepts holder.key event = true
    · rw [if_pos hacc, if_pos (show accepts (holder.renumber σ).key event = true from hacc)]
      rcases t.mailbox? holder.lease with _ | m
      · rfl
      · by_cases hroom : m.queue.length < mailboxDepth
        · simp only [Option.map_some, if_pos hroom,
            if_pos (show (m.renumber σ).queue.length < mailboxDepth from hroom)]
          exact congrArg Except.ok (modifyMailbox_renumber hσ fun _ => rfl)
        · simp only [Option.map_some, if_neg hroom,
            if_neg (show ¬(m.renumber σ).queue.length < mailboxDepth from hroom)]
          rfl
    · rw [if_neg hacc, if_neg (show ¬accepts (holder.renumber σ).key event = true from hacc)]
      rfl

theorem post_renumber (hσ : Function.Injective σ) (event : ε) :
    (t.renumber σ).post i event = (t.post i event).map (renumber σ) := postIf_renumber hσ event _

theorem take?_renumber (hσ : Function.Injective σ) : (t.renumber σ).take? (l.renumber σ) =
    (t.take? l).map fun (event, t) => (event, t.renumber σ) := by
  unfold take?
  rw [pending_renumber hσ]
  rcases t.pending l with _ | ⟨event, rest⟩
  · rfl
  · simp only [Option.map_some, Option.some.injEq, Prod.mk.injEq, true_and]
    exact modifyMailbox_renumber hσ fun _ => rfl

theorem drop_renumber (hσ : Function.Injective σ) :
    (t.renumber σ).drop (l.renumber σ) = (t.drop l).renumber σ := by
  have hrelease : (t.renumber σ).release (l.renumber σ) = (t.release l).renumber σ := by
    unfold release
    rw [isReleased_renumber hσ]
    split
    · rfl
    · have hslots : ({ t.renumber σ with
          slots := (t.renumber σ).slots.set (l.renumber σ).index none } : Table ε κ) =
            ({ t with slots := t.slots.set l.index none } : Table ε κ).renumber σ := by
        simp [renumber, Lease.renumber, List.map_set]
      rw [hslots]
      exact modifyMailbox_renumber hσ fun _ => rfl
  unfold drop
  simp only [hrelease]
  generalize t.release l = t'
  simp only [renumber, Table.mk.injEq, true_and, and_true]
  rw [List.filter_map]
  congr 2
  funext m
  simp [Mailbox.renumber, Lease.renumber_inj hσ]

/-- The next lease has the next serial number again. -/
theorem leaseAt?_renumber (hnext : σ (t.issued + 1) = σ t.issued + 1) (key : κ) :
    (t.renumber σ).leaseAt? i key =
      (t.leaseAt? i key).map fun (l, t) => (l.renumber σ, t.renumber σ) := by
  unfold leaseAt?
  rw [isIdle_renumber]
  split
  · simp [occupy, renumber, Lease.renumber, Holder.renumber, Mailbox.renumber, List.map_set, hnext]
  · rfl

/-- The leases of a table have serial numbers that were given out. -/
theorem Sound.serial_lt_of_mem (ht : t.Sound) {m : Mailbox ε} (hm : m ∈ t.mailboxes) :
    m.lease.serial < t.issued := by
  obtain ⟨box, hbox⟩ : ∃ box, t.mailbox? m.lease = some box := by
    rw [← Option.isSome_iff_exists]
    exact List.find?_isSome.2 ⟨m, hm, by simp⟩
  exact ht.serial_lt hbox

/-- Serial numbers that were never given out do not matter, but for the next one. -/
theorem Sound.renumber_congr (ht : t.Sound) (hστ : ∀ n < t.issued, τ n = σ n) :
    t.renumber τ = { t.renumber σ with issued := τ t.issued } := by
  have hmailbox : ∀ m ∈ t.mailboxes, m.renumber τ = m.renumber σ := by
    intro m hm
    simp only [Mailbox.renumber, Lease.renumber, hστ _ (ht.serial_lt_of_mem hm)]
  have hslot : ∀ o ∈ t.slots, o.map (Holder.renumber τ) = o.map (Holder.renumber σ) := by
    intro o ho
    cases o with
    | none => rfl
    | some holder =>
      obtain ⟨i, hi⟩ := List.mem_iff_getElem?.1 ho
      obtain ⟨box, hbox, -⟩ := ht.holder_mailbox (show t.holder? i = some holder by simp [holder?, hi])
      simp only [Option.map_some, Holder.renumber, Lease.renumber, hστ _ (ht.serial_lt hbox)]
  simp only [renumber, Table.mk.injEq, true_and, and_true]
  exact ⟨List.map_congr_left hslot, List.map_congr_left hmailbox⟩

/-- A lease that is dropped at once leaves nothing behind but its serial number. -/
theorem Sound.drop_of_leaseAt? {t' : Table ε κ} {key : κ} (ht : t.Sound)
    (hl : t.leaseAt? i key = some (l, t')) : t'.drop l = { t with issued := t.issued + 1 } := by
  have hreleased := (ht.leased_of_leaseAt? hl).1.isReleased l
  unfold leaseAt? at hl
  split at hl
  · rename_i hidle
    cases hl
    obtain ⟨hlt, hget⟩ := List.getElem?_eq_some_iff.1 (isIdle_iff.1 hidle)
    have hother : ∀ m ∈ t.mailboxes, m.lease ≠ ⟨t.issued, i⟩ := by
      intro m hm heq
      have hserial := ht.serial_lt_of_mem hm
      rw [heq] at hserial
      exact absurd hserial (Nat.lt_irrefl _)
    have hslots : t.slots.set i none = t.slots := by rw [← hget, List.set_getElem_self]
    have hmailboxes : (t.mailboxes.map fun m => if m.lease = ⟨t.issued, i⟩ then
        { m with released := true } else m) = t.mailboxes := by
      refine (List.map_congr_left fun m hm => ?_).trans (List.map_id _)
      exact if_neg (hother m hm)
    have hfilter : t.mailboxes.filter (fun m => m.lease ≠ ⟨t.issued, i⟩) = t.mailboxes :=
      List.filter_eq_self.2 fun m hm => by simpa using hother m hm
    rw [if_pos rfl] at hreleased
    unfold Table.drop Table.release
    rw [hreleased]
    simp only [Bool.false_eq_true, if_false, Table.modifyMailbox, List.map_append, List.filter_append,
      hmailboxes, hfilter, List.set_set, hslots]
    simp
  · cases hl

end Table

end

/-! ## Tasks under other numbers -/

/-- Other numbers for tasks.  Tasks that are not kept are left out. -/
structure Numbering where
  keeps : TaskId → Bool
  number : TaskId → TaskId
  injective : ∀ {i j}, keeps i = true → keeps j = true → number i = number j → i = j

namespace Numbering

/-- A task with this number would be kept, and the next one would have the next number. -/
def Continues (n : Numbering) (id : TaskId) : Prop :=
  n.keeps id = true ∧ n.number (id + 1) = n.number id + 1

variable {α : Type} (n : Numbering) (change : α → α)

/-- The list of tasks under other numbers, with a change to each task. -/
def tasks (ts : List (TaskId × α)) : List (TaskId × α) :=
  ts.filterMap fun t => if n.keeps t.1 then some (n.number t.1, change t.2) else none

variable {n} {id : TaskId} (ts : List (TaskId × α)) (task : α)

theorem tasks_cons (t : TaskId × α) : n.tasks change (t :: ts) =
    if n.keeps t.1 then (n.number t.1, change t.2) :: n.tasks change ts else n.tasks change ts := by
  unfold tasks
  by_cases hk : n.keeps t.1 = true
  · simp [hk]
  · simp [hk]

/-- Leaving tasks out does not hide those that are kept. -/
theorem lookup_tasks (hk : n.keeps id = true) :
    (n.tasks change ts).lookup (n.number id) = (ts.lookup id).map change := by
  induction ts with
  | nil => rfl
  | cons t ts ih =>
    obtain ⟨j, u⟩ := t
    rw [tasks_cons]
    by_cases hid : j = id
    · simp [hid, hk]
    · have hne : (id == j) = false := by simpa using Ne.symm hid
      by_cases hkt : n.keeps j = true
      · have hnumber : (n.number id == n.number j) = false := by
          simpa using fun h => hid (n.injective hk hkt h).symm
        simp [hkt, List.lookup_cons, hne, hnumber, ih]
      · simp [hkt, List.lookup_cons, hne, ih]

theorem tasks_replaced (hk : n.keeps id = true) :
    n.tasks change (ts.map fun t => if t.1 = id then (id, task) else t) =
      (n.tasks change ts).map fun t => if t.1 = n.number id then (n.number id, change task) else t := by
  induction ts with
  | nil => rfl
  | cons t ts ih =>
    rw [List.map_cons, tasks_cons, tasks_cons]
    by_cases hid : t.1 = id
    · simp [hid, hk, ih]
    · by_cases hkt : n.keeps t.1 = true
      · have hnumber : n.number t.1 ≠ n.number id := fun h => hid (n.injective hkt hk h)
        simp [hid, hkt, hnumber, ih]
      · simp [hid, hkt, ih]

/-- What becomes of a task that is left out does not show. -/
theorem tasks_replaced_of_dropped (hk : n.keeps id = false) :
    n.tasks change (ts.map fun t => if t.1 = id then (id, task) else t) = n.tasks change ts := by
  induction ts with
  | nil => rfl
  | cons t ts ih =>
    rw [List.map_cons, tasks_cons, tasks_cons]
    by_cases hid : t.1 = id
    · simp [hid, hk, ih]
    · simp [hid, ih]

theorem tasks_removed (hk : n.keeps id = true) : n.tasks change (ts.filter (·.1 ≠ id)) =
    (n.tasks change ts).filter (·.1 ≠ n.number id) := by
  induction ts with
  | nil => rfl
  | cons t ts ih =>
    rw [tasks_cons]
    by_cases hid : t.1 = id
    · simpa [hid, hk] using ih
    · by_cases hkt : n.keeps t.1 = true
      · have hnumber : n.number t.1 ≠ n.number id := fun h => hid (n.injective hkt hk h)
        simpa [hid, hkt, hnumber, tasks_cons] using ih
      · simpa [hid, hkt, tasks_cons] using ih

theorem tasks_removed_of_dropped (hk : n.keeps id = false) :
    n.tasks change (ts.filter (·.1 ≠ id)) = n.tasks change ts := by
  induction ts with
  | nil => rfl
  | cons t ts ih =>
    rw [tasks_cons]
    by_cases hid : t.1 = id
    · simpa [hid, hk] using ih
    · rw [List.filter_cons_of_pos (by simpa using hid), tasks_cons, ih]

/-- Numberings that agree on the tasks that are there make the same list. -/
theorem tasks_congr {n' : Numbering} {change' : α → α} (hsame : ∀ t ∈ ts, n'.keeps t.1 = n.keeps t.1 ∧
    n'.number t.1 = n.number t.1 ∧ change' t.2 = change t.2) :
    n'.tasks change' ts = n.tasks change ts := by
  induction ts with
  | nil => rfl
  | cons t ts ih =>
    obtain ⟨hkeeps, hnumber, hchange⟩ := hsame t List.mem_cons_self
    rw [tasks_cons, tasks_cons, hkeeps, hnumber, hchange,
      ih fun u hu => hsame u (List.mem_cons_of_mem _ hu)]

theorem tasks_added (hk : n.keeps id = true) : n.tasks change (ts ++ [(id, task)]) =
    n.tasks change ts ++ [(n.number id, change task)] := by
  simp [tasks, hk]

theorem tasks_added_of_dropped (hk : n.keeps id = false) :
    n.tasks change (ts ++ [(id, task)]) = n.tasks change ts := by
  simp [tasks, hk]

end Numbering

/-! ## What happens, under other numbers -/

/-- The same move of a task with another number. -/
def Move.renumber {ι : Type} (number : TaskId → TaskId) : Move ι → Move ι
  | .start input => .start input
  | .run id => .run (number id)
  | .sent id result => .sent (number id) result
  | .answered id outcome now => .answered (number id) outcome now
  | .expire id => .expire (number id)
  | .abort id => .abort (number id)
  | .elapse duration => .elapse duration

/-- What others see of a task with another number. -/
def Event.renumber {π ρ : Type} (number : TaskId → TaskId) : Event π ρ → Event π ρ
  | .emitted id m => .emitted (number id) m
  | .called id call => .called (number id) call
  | .returned id result => .returned (number id) result

/-- What others see of a task, and when, without its number. -/
def seen {σ μ π ρ : Type} (clock : σ → Nat) (h : List (Transition σ μ (Event π ρ))) (id : TaskId) :
    List (Nat × Event π ρ) :=
  h.flatMap fun tr => (tr.events.filter (·.task = id)).map fun ev =>
    (clock tr.before, ev.renumber fun _ => 0)

section

variable {σ μ π ρ : Type} {clock : σ → Nat} {h k : List (Transition σ μ (Event π ρ))}
  {tr : Transition σ μ (Event π ρ)} {id : TaskId} {number : TaskId → TaskId}

@[simp] theorem task_renumber (ev : Event π ρ) : (ev.renumber number).task = number ev.task := by
  cases ev <;> rfl

@[simp] theorem renumber_renumber (f : TaskId → TaskId) (ev : Event π ρ) :
    (ev.renumber number).renumber f = ev.renumber (f ∘ number) := by
  cases ev <;> rfl

/-- Other numbers tell the same tasks apart. -/
theorem filter_task_renumber {n : Numbering} {events : List (Event π ρ)}
    (hk : ∀ ev ∈ events, n.keeps ev.task = true) (hid : n.keeps id = true) :
    (events.map (Event.renumber n.number)).filter (·.task = n.number id) =
      (events.filter (·.task = id)).map (Event.renumber n.number) := by
  rw [List.filter_map]
  congr 1
  refine List.filter_congr fun ev hev => ?_
  have hiff : n.number ev.task = n.number id ↔ ev.task = id :=
    ⟨n.injective (hk ev hev) hid, congrArg n.number⟩
  simp [hiff]

theorem seen_append : seen clock (h ++ k) id = seen clock h id ++ seen clock k id :=
  List.flatMap_append

theorem seen_snoc : seen clock (h ++ [tr]) id = seen clock h id ++
    (tr.events.filter (·.task = id)).map fun ev => (clock tr.before, ev.renumber fun _ => 0) := by
  simp [seen]

/-- A step under other numbers adds the same to what others see. -/
theorem seen_snoc_renumber {n : Numbering} {tr' : Transition σ μ (Event π ρ)}
    (hk : ∀ ev ∈ tr.events, n.keeps ev.task = true) (hid : n.keeps id = true)
    (hclock : clock tr'.before = clock tr.before)
    (hevents : tr'.events = tr.events.map (Event.renumber n.number))
    (hseen : seen clock k (n.number id) = seen clock h id) :
    seen clock (k ++ [tr']) (n.number id) = seen clock (h ++ [tr]) id := by
  rw [seen_snoc, seen_snoc, hseen, hevents, filter_task_renumber hk hid, List.map_map, hclock]
  refine congrArg _ (List.map_congr_left fun ev _ => ?_)
  simp [Function.comp_def]

/-- A task that no event is about was never seen. -/
theorem seen_eq_nil (hnone : ∀ tr ∈ h, ∀ ev ∈ tr.events, ev.task ≠ id) : seen clock h id = [] := by
  refine List.flatMap_eq_nil_iff.2 fun tr htr => ?_
  rw [List.map_eq_nil_iff, List.filter_eq_nil_iff]
  intro ev hev
  simpa using hnone tr htr ev hev

/-- What a task lets others see says all that is said of it. -/
theorem flatMap_eq_seen {α : Type} {f : TaskId → Event π ρ → Option α}
    (hother : ∀ ev, ev.task ≠ id → f id ev = none)
    (hself : ∀ ev, ev.task = id → f id ev = f 0 (ev.renumber fun _ => 0)) :
    (h.flatMap fun tr => tr.events.filterMap (f id)) =
      (seen clock h id).filterMap fun ev => f 0 ev.2 := by
  unfold seen
  rw [List.filterMap_flatMap]
  congr 1
  funext tr
  rw [List.filterMap_map, List.filterMap_filter]
  congr 1
  funext ev
  by_cases hid : ev.task = id
  · simp [hid, hself ev hid]
  · simp [hid, hother ev hid]

theorem emissions_eq_seen :
    emissions h id = (seen clock h id).filterMap fun ev => ev.2.emittedBy? 0 := by
  refine flatMap_eq_seen (f := fun id ev => ev.emittedBy? id) (fun ev hev => ?_) fun ev hev => ?_
  · cases ev with
    | emitted j m => exact if_neg hev
    | _ => rfl
  · cases ev with
    | emitted j m => exact if_pos hev
    | _ => rfl

theorem results_eq_seen :
    results h id = (seen clock h id).filterMap fun ev => ev.2.returnedBy? 0 := by
  refine flatMap_eq_seen (f := fun id ev => ev.returnedBy? id) (fun ev hev => ?_) fun ev hev => ?_
  · cases ev with
    | returned j result => exact if_neg hev
    | _ => rfl
  · cases ev with
    | returned j result => exact if_pos hev
    | _ => rfl

/-- Tasks that look the same have said the same and ended with the same. -/
theorem said_eq_of_seen_eq {j : TaskId} (hseen : seen clock k j = seen clock h id) :
    emissions k j = emissions h id ∧ results k j = results h id :=
  ⟨(emissions_eq_seen.trans (by rw [hseen])).trans emissions_eq_seen.symm,
    (results_eq_seen.trans (by rw [hseen])).trans results_eq_seen.symm⟩

end

end ShortMessage.Transaction
