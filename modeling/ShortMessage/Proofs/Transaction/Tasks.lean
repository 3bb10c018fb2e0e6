import ShortMessage.Proofs.Transaction.Release
import ShortMessage.Transaction.Process

/-!
# Tasks and their leases

The entities keep their tasks in a list by number.  The first part says what becomes of the other
tasks when one is replaced, taken off or added.

`Accounts t leaseOf` says that the leases of a table are those of the tasks: every task that has
one has a mailbox for it, no two tasks have the same one, and no mailbox is left without a task.
Each operation on the table keeps the accounts when the task that performs it changes its phase
accordingly; that a lease cannot leak or be given back twice follows from nothing else.
-/

namespace ShortMessage.Transaction

/-! ## The list of tasks -/

section

variable {τ : Type} (tasks : List (TaskId × τ)) (id j : TaskId)

/-- Only the task whose phase changes is found changed. -/
theorem lookup_replaced (task : τ) :
    (tasks.map fun t => if t.1 = id then (id, task) else t).lookup j =
      if j = id then (tasks.lookup id).map fun _ => task else tasks.lookup j := by
  induction tasks with
  | nil => simp
  | cons t ts ih =>
    obtain ⟨k, u⟩ := t
    by_cases hk : k = id
    · by_cases hj : j = id
      · simp [hk, hj]
      · have hjk : (j == id) = false := by simpa using hj
        simpa [List.lookup_cons, hk, hj, hjk] using ih
    · by_cases hj : j = id
      · have hik : (id == k) = false := by simpa using fun h : id = k => hk h.symm
        simpa [List.lookup_cons, hk, hj, hik] using ih
      · by_cases hjk : j = k
        · simp [hk, hjk]
        · have hjk' : (j == k) = false := by simpa using hjk
          simpa [List.lookup_cons, hk, hj, hjk'] using ih

theorem lookup_removed :
    (tasks.filter (·.1 ≠ id)).lookup j = if j = id then none else tasks.lookup j := by
  induction tasks with
  | nil => simp
  | cons t ts ih =>
    obtain ⟨k, u⟩ := t
    by_cases hk : k = id
    · by_cases hj : j = id
      · simpa [hk, hj] using ih
      · have hjk : (j == id) = false := by simpa using hj
        simpa [List.lookup_cons, hk, hj, hjk] using ih
    · by_cases hjk : j = k
      · have hj : ¬ k = id := hk
        simp [hjk, hj]
      · have hjk' : (j == k) = false := by simpa using hjk
        simpa [List.lookup_cons, hk, hjk'] using ih

theorem lookup_added (task : τ) :
    (tasks ++ [(id, task)]).lookup j =
      (tasks.lookup j).or (if j = id then some task else none) := by
  induction tasks with
  | nil =>
    by_cases hj : j = id
    · simp [hj]
    · have hj' : (j == id) = false := by simpa using hj
      simp [List.lookup_cons, hj, hj']
  | cons t ts ih =>
    obtain ⟨k, u⟩ := t
    by_cases hjk : j = k
    · simp [hjk]
    · have hjk' : (j == k) = false := by simpa using hjk
      simpa [List.lookup_cons, hjk'] using ih

theorem mem_of_lookup {tasks : List (TaskId × τ)} {id : TaskId} {task : τ}
    (h : tasks.lookup id = some task) : (id, task) ∈ tasks := by
  obtain ⟨front, back, rfl, -⟩ := List.lookup_eq_some_iff.1 h
  simp

end

/-! ## Leases of tasks -/

/-- The leases of the table are those of the tasks. -/
structure Accounts {ε κ : Type} (t : Table ε κ) (leaseOf : TaskId → Option Lease) : Prop where
  sound : t.Sound
  mailbox : ∀ {id l}, leaseOf id = some l → ∃ m, t.mailbox? l = some m
  unique : ∀ {i j l}, leaseOf i = some l → leaseOf j = some l → i = j
  owner : ∀ {l m}, t.mailbox? l = some m → ∃ id, leaseOf id = some l

namespace Accounts

variable {ε κ : Type} {t t' : Table ε κ} {f g : TaskId → Option Lease}

theorem idle (capacity cursor : Nat) :
    Accounts (Table.idle capacity cursor : Table ε κ) fun _ => none :=
  ⟨Table.sound_idle _ _, by simp, by simp, by simp⟩

theorem congr (h : Accounts t f) (hfg : ∀ id, g id = f id) : Accounts t g := by
  have : g = f := funext hfg
  exact this ▸ h

/-- Two owners of unreleased leases in the same slot are one. -/
theorem eq_of_index_eq (h : Accounts t f) {i j : TaskId} {l l' : Lease} (hi : f i = some l)
    (hj : f j = some l') (hl : t.isReleased l = false) (hl' : t.isReleased l' = false)
    (hindex : l.index = l'.index) : i = j := by
  obtain ⟨m, hm⟩ := h.mailbox hi
  obtain ⟨m', hm'⟩ := h.mailbox hj
  rw [Table.isReleased_of_mailbox? hm] at hl
  rw [Table.isReleased_of_mailbox? hm'] at hl'
  obtain ⟨k, hk⟩ := h.sound.holder_of_unreleased hm hl
  obtain ⟨k', hk'⟩ := h.sound.holder_of_unreleased hm' hl'
  rw [hindex, hk'] at hk
  cases hk
  exact h.unique hi hj

/-- A table with other contents but the same leases keeps the accounts. -/
theorem of_mailboxes (h : Accounts t f) (hsound : t'.Sound)
    (hsame : ∀ l, (t'.mailbox? l).isSome = (t.mailbox? l).isSome) : Accounts t' f := by
  refine ⟨hsound, ?_, h.unique, ?_⟩
  · intro id l hl
    obtain ⟨m, hm⟩ := h.mailbox hl
    rw [← Option.isSome_iff_exists, hsame, hm]
    rfl
  · intro l m hm
    have hs := hsame l
    rw [hm] at hs
    obtain ⟨m', hm'⟩ := Option.isSome_iff_exists.1 hs.symm
    exact h.owner hm'

/-- A new lease is none that a task has. -/
theorem ne_of_leased (h : Accounts t f) {key : κ} {l l' : Lease} {id : TaskId}
    (hl : Table.Leased t key l t') (hid : f id = some l') : l' ≠ l := by
  rintro rfl
  obtain ⟨m, hm⟩ := h.mailbox hid
  rw [hl.fresh] at hm
  cases hm

/-- A task without a lease gets the new one. -/
theorem leased (h : Accounts t f) {key : κ} {l : Lease} {id : TaskId}
    (hl : Table.Leased t key l t') (hid : f id = none)
    (hg : ∀ j, g j = if j = id then some l else f j) : Accounts t' g := by
  have hother : ∀ {j l'}, f j = some l' → l' ≠ l := fun hj => h.ne_of_leased hl hj
  refine ⟨hl.sound, ?_, ?_, ?_⟩
  · intro j l' hj
    rw [hg] at hj
    split at hj
    · cases hj
      exact ⟨{ lease := l }, by rw [hl.mailbox, if_pos rfl]⟩
    · obtain ⟨m, hm⟩ := h.mailbox hj
      exact ⟨m, by rw [hl.mailbox, if_neg (hother hj)]; exact hm⟩
  · intro i j l' hi hj
    rw [hg] at hi hj
    split at hi <;> split at hj
    · rename_i hi' hj'; rw [hi', hj']
    · cases hi; exact absurd rfl (hother hj)
    · cases hj; exact absurd rfl (hother hi)
    · exact h.unique hi hj
  · intro l' m hm
    rw [hl.mailbox] at hm
    split at hm
    · rename_i heq
      exact ⟨id, by rw [hg, if_pos rfl, heq]⟩
    · obtain ⟨j, hj⟩ := h.owner hm
      refine ⟨j, ?_⟩
      rw [hg, if_neg]
      · exact hj
      · rintro rfl
        rw [hid] at hj
        cases hj

theorem postIf (h : Accounts t f) {i : Nat} {event : ε} {accepts : κ → ε → Bool}
    (hp : t.postIf i event accepts = .ok t') : Accounts t' f :=
  h.of_mailboxes (h.sound.postIf hp) (Table.isSome_mailbox?_postIf hp)

theorem take? (h : Accounts t f) {l : Lease} {event : ε} (ht : t.take? l = some (event, t')) :
    Accounts t' f :=
  h.of_mailboxes (h.sound.take? ht) (Table.isSome_mailbox?_take? ht)

theorem release (h : Accounts t f) (l : Lease) : Accounts (t.release l) f :=
  h.of_mailboxes (h.sound.release l) (Table.isSome_mailbox?_release t l)

theorem retire (h : Accounts t f) (l : Lease) : Accounts (t.retire l).2 f := by
  unfold Table.retire
  split
  · rename_i event t' ht
    exact (h.take? ht).release l
  · exact h.release l

/-- A task gives its lease up when the table forgets it. -/
theorem drop (h : Accounts t f) {l : Lease} {id : TaskId} (hid : f id = some l)
    (hg : ∀ j, g j = if j = id then none else f j) : Accounts (t.drop l) g := by
  have hother : ∀ {j l'}, j ≠ id → f j = some l' → l' ≠ l := by
    rintro j l' hj hl rfl
    exact hj (h.unique hl hid)
  refine ⟨h.sound.drop l, ?_, ?_, ?_⟩
  · intro j l' hj
    rw [hg] at hj
    split at hj
    · cases hj
    · rename_i hne
      obtain ⟨m, hm⟩ := h.mailbox hj
      exact ⟨m, by rw [Table.mailbox?_drop, if_neg (hother hne hj)]; exact hm⟩
  · intro i j l' hi hj
    rw [hg] at hi hj
    split at hi
    · cases hi
    · split at hj
      · cases hj
      · exact h.unique hi hj
  · intro l' m hm
    rw [Table.mailbox?_drop] at hm
    split at hm
    · cases hm
    · rename_i hne
      obtain ⟨j, hj⟩ := h.owner hm
      refine ⟨j, ?_⟩
      rw [hg, if_neg]
      · exact hj
      · rintro rfl
        rw [hid] at hj
        cases hj
        exact hne rfl

/-- A task that ends may hand its lease over to another one. -/
theorem handOver (h : Accounts t f) {l : Lease} {id heir : TaskId} (hid : f id = some l)
    (hheir : f heir = none)
    (hg : ∀ j, g j = if j = heir then some l else if j = id then none else f j) :
    Accounts t g := by
  have hne : heir ≠ id := by
    rintro rfl
    rw [hid] at hheir
    cases hheir
  -- what a task has now, one task had before
  have hfrom : ∀ {j l'}, g j = some l' →
      (j = heir ∧ l' = l) ∨ (j ≠ heir ∧ j ≠ id ∧ f j = some l') := by
    intro j l' hj
    rw [hg] at hj
    split at hj
    · rename_i hjh; cases hj; exact .inl ⟨hjh, rfl⟩
    · rename_i hjh
      split at hj
      · cases hj
      · rename_i hji; exact .inr ⟨hjh, hji, hj⟩
  refine ⟨h.sound, ?_, ?_, ?_⟩
  · intro j l' hj
    obtain ⟨-, rfl⟩ | ⟨-, -, hj⟩ := hfrom hj
    · exact h.mailbox hid
    · exact h.mailbox hj
  · intro i j l' hi hj
    obtain ⟨rfl, rfl⟩ | ⟨-, hii, hi⟩ := hfrom hi
    · obtain ⟨rfl, -⟩ | ⟨-, hji, hj⟩ := hfrom hj
      · rfl
      · exact absurd (h.unique hj hid) hji
    · obtain ⟨rfl, rfl⟩ | ⟨-, hji, hj⟩ := hfrom hj
      · exact absurd (h.unique hi hid) hii
      · exact h.unique hi hj
  · intro l' m hm
    obtain ⟨j, hj⟩ := h.owner hm
    by_cases hjid : j = id
    · subst hjid
      rw [hid] at hj
      cases hj
      exact ⟨heir, by rw [hg, if_pos rfl]⟩
    · refine ⟨j, ?_⟩
      have hjh : j ≠ heir := by
        rintro rfl
        rw [hheir] at hj
        cases hj
      rw [hg, if_neg hjh, if_neg hjid]
      exact hj

end Accounts

/-! ## What a task does with its lease -/

/-- A task that has the lease in the first place does something to the table, and then has the
lease in the second place. -/
inductive Change {ε κ : Type} (t : Table ε κ) :
    Option Lease → Option Lease → Table ε κ → Prop where
  | keep {l} : Change t l l t
  | lease {key l t'} : Table.Leased t key l t' → Change t none (some l) t'
  | take {l event t'} : t.take? l = some (event, t') → Change t (some l) (some l) t'
  | retire {l} : Change t (some l) (some l) (t.retire l).2
  | drop {l} : Change t (some l) none (t.drop l)

section

variable {ε κ : Type} {t t' : Table ε κ} {f g : TaskId → Option Lease} {id j : TaskId}
  {l l' : Option Lease}

theorem Change.length (hc : Change t l l' t') : t'.slots.length = t.slots.length := by
  cases hc with
  | keep => rfl
  | lease hl => exact hl.length
  | take ht => exact Table.length_take? ht
  | retire => exact Table.length_retire _ _
  | drop => exact Table.length_drop _ _

theorem Change.issued_le (hc : Change t l l' t') : t.issued ≤ t'.issued := by
  cases hc with
  | keep => exact Nat.le_refl _
  | lease hl => exact hl.issued ▸ Nat.le_succ _
  | take ht => exact Nat.le_of_eq (Table.issued_take? ht).symm
  | retire => exact Nat.le_of_eq (Table.issued_retire _ _).symm
  | drop => exact Nat.le_of_eq (Table.issued_release _ _).symm

/-- Whatever a task does with its lease, the accounts stay in order. -/
theorem Accounts.change (h : Accounts t f) (hc : Change t l l' t') (hid : f id = l)
    (hg : ∀ j, g j = if j = id then l' else f j) : Accounts t' g := by
  have hsame : l' = l → ∀ j, g j = f j := by
    intro hl j
    rw [hg]
    split
    · rename_i hj
      rw [hj, hid, hl]
    · rfl
  cases hc with
  | keep => exact h.congr (hsame rfl)
  | lease hl => exact h.leased hl hid hg
  | take ht => exact (h.take? ht).congr (hsame rfl)
  | retire => exact (h.retire _).congr (hsame rfl)
  | drop => exact h.drop hid hg

/-- What other tasks have stays as it is. -/
theorem Accounts.of_ne (h : Accounts t f) (hc : Change t l l' t') (hid : f id = l) {lease : Lease}
    (hj : f j = some lease) (hne : j ≠ id) : t'.mailbox? lease = t.mailbox? lease ∧
      ∀ i key, t'.holder? i = some ⟨lease, key⟩ ↔ t.holder? i = some ⟨lease, key⟩ := by
  have hother : ∀ {x}, f id = some x → lease ≠ x := by
    rintro x hx rfl
    exact hne (h.unique hj hx)
  have hfilter : ∀ {x : Lease} {o : Option (Holder κ)} {key : κ}, lease ≠ x →
      (o.filter (·.lease ≠ x) = some ⟨lease, key⟩ ↔ o = some ⟨lease, key⟩) := by
    intro x o key hx
    rw [Option.filter_eq_some_iff]
    simp [hx]
  cases hc with
  | keep => exact ⟨rfl, fun _ _ => Iff.rfl⟩
  | @lease key l t' hl =>
    have hx : lease ≠ l := h.ne_of_leased hl hj
    refine ⟨(hl.mailbox lease).trans (if_neg hx), fun i key' => ?_⟩
    rw [hl.holder]
    split
    · rename_i hi
      subst hi
      rw [hl.idle]
      simp [hx.symm]
    · rfl
  | take ht =>
    exact ⟨Table.mailbox?_take?_of_ne ht (hother hid), fun i key => by rw [Table.holder?_take? ht]⟩
  | retire =>
    refine ⟨Table.mailbox?_retire_of_ne _ (hother hid), fun i key => ?_⟩
    rw [h.sound.holder?_retire]
    exact hfilter (hother hid)
  | drop =>
    refine ⟨(Table.mailbox?_drop _ _ _).trans (if_neg (hother hid)), fun i key => ?_⟩
    rw [h.sound.holder?_drop]
    exact hfilter (hother hid)

end

end ShortMessage.Transaction
