import ShortMessage.Proofs.Transaction.Tasks

/-!
# Who has a slot, and what waits there

As long as no lease is released before it is dropped, every task with a lease has its slot.
`Tenancy t f` says so of a table and the leases `f` of the tasks.  Then a slot is either vacant or
has one tenant, and all that matters of the table is who that is and which events wait there
(`Tenant`).  Each operation changes this for one slot only (`Tenancy.of_ne`).
-/

namespace ShortMessage.Transaction

/-- The leases of the table are those of the tasks, and none was released. -/
structure Tenancy {ε κ : Type} (t : Table ε κ) (f : TaskId → Option Lease) : Prop
    extends Accounts t f where
  kept : ∀ {id l}, f id = some l → t.isReleased l = false

/-- The task has a lease on the slot `n`, and these events wait for it. -/
def Tenant {ε κ : Type} (t : Table ε κ) (f : TaskId → Option Lease) (n : Nat) (id : TaskId)
    (events : List ε) : Prop :=
  ∃ l, f id = some l ∧ l.index = n ∧ t.pending l = events

/-- No task has a lease on the slot `n`. -/
def Vacant (f : TaskId → Option Lease) (n : Nat) : Prop := ∀ ⦃id l⦄, f id = some l → l.index ≠ n

section

variable {ε κ : Type} {t t' : Table ε κ} {f g : TaskId → Option Lease} {n k : Nat}
  {id j : TaskId} {l : Lease} {l' : Option Lease} {event : ε} {events events' : List ε}

theorem tenancy_idle (capacity cursor : Nat) :
    Tenancy (Table.idle capacity cursor : Table ε κ) fun _ => none :=
  ⟨Accounts.idle _ _, by rintro _ _ ⟨⟩⟩

/-! ## Slots and tenants -/

theorem Tenancy.holder (h : Tenancy t f) (hl : f id = some l) :
    ∃ key, t.holder? l.index = some ⟨l, key⟩ := by
  obtain ⟨m, hm⟩ := h.mailbox hl
  have hr := h.kept hl
  rw [Table.isReleased_of_mailbox? hm] at hr
  exact h.sound.holder_of_unreleased hm hr

theorem Tenancy.index_lt (h : Tenancy t f) (hl : f id = some l) : l.index < t.slots.length := by
  obtain ⟨m, hm⟩ := h.mailbox hl
  exact h.sound.index_lt hm

theorem Tenancy.vacant_iff (h : Tenancy t f) : Vacant f n ↔ t.holder? n = none := by
  constructor
  · intro hv
    cases hn : t.holder? n with
    | none => rfl
    | some holder =>
      obtain ⟨m, hm, -⟩ := h.sound.holder_mailbox hn
      obtain ⟨id, hid⟩ := h.owner hm
      exact absurd (h.sound.holder_index hn) (hv hid)
  · rintro hn id l hl rfl
    obtain ⟨key, hkey⟩ := h.holder hl
    rw [hn] at hkey
    cases hkey

theorem Tenant.not_vacant (ht : Tenant t f n id events) : ¬Vacant f n := by
  obtain ⟨l, hl, hn, -⟩ := ht
  exact fun hv => hv hl hn

theorem Tenancy.vacant_of_isHeld (h : Tenancy t f) (hn : t.isHeld n = false) : Vacant f n :=
  h.vacant_iff.2 (Table.isHeld_eq_false_iff.1 hn)

/-- A slot has one tenant. -/
theorem Tenancy.eq (h : Tenancy t f) (hi : Tenant t f n id events) (hj : Tenant t f n j events') :
    id = j ∧ events = events' := by
  obtain ⟨l, hl, rfl, rfl⟩ := hi
  obtain ⟨l', hl', hindex, rfl⟩ := hj
  obtain rfl := h.eq_of_index_eq hl hl' (h.kept hl) (h.kept hl') hindex.symm
  rw [hl] at hl'
  cases hl'
  exact ⟨rfl, rfl⟩

/-! ## Changes -/

/-- Slots in which the task has nothing, before and after, do not change. -/
theorem Tenancy.of_ne (h : Tenancy t f) (hc : Change t (f id) l' t')
    (hg : ∀ j, g j = if j = id then l' else f j) (hbefore : ∀ {l}, f id = some l → l.index ≠ n)
    (hafter : ∀ {l}, l' = some l → l.index ≠ n) :
    (∀ {j events}, Tenant t f n j events → Tenant t' g n j events) ∧ (Vacant f n → Vacant g n) := by
  constructor
  · rintro j _ ⟨l, hl, hn, rfl⟩
    have hne : j ≠ id := by
      rintro rfl
      exact hbefore hl hn
    refine ⟨l, by rw [hg, if_neg hne]; exact hl, hn, ?_⟩
    unfold Table.pending
    rw [(h.toAccounts.of_ne hc rfl hl hne).1]
  · intro hv j l hl
    rw [hg] at hl
    split at hl
    · exact hafter hl
    · exact hv hl

theorem Tenancy.tenant_of_leased (h : Tenancy t f) {key : κ} (hl : Table.Leased t key l t')
    (hg : g id = some l) : Vacant f l.index ∧ Tenant t' g l.index id [] :=
  ⟨h.vacant_iff.2 hl.idle, l, hg, rfl, by rw [hl.pending, if_pos rfl]⟩

theorem Tenant.take? (ht : Tenant t f n id events) (hid : f id = some l)
    (htake : t.take? l = some (event, t')) (hg : g id = some l) :
    ∃ rest, events = event :: rest ∧ Tenant t' g n id rest := by
  obtain ⟨l', hl, hn, rfl⟩ := ht
  rw [hid] at hl
  cases hl
  exact ⟨_, Table.pending_take? htake, l, hg, hn, rfl⟩

/-- A slot whose tenant gives up its lease is vacant. -/
theorem Tenancy.vacant (h : Tenancy t f) (ht : Tenant t f n id events)
    (hg : ∀ j, g j = if j = id then none else f j) : Vacant g n := by
  intro j l hl hn
  rw [hg] at hl
  split at hl
  · cases hl
  · rename_i hne
    exact hne (h.eq ⟨l, hl, hn, rfl⟩ ht).1

theorem Tenancy.tenant_post (h : Tenancy t f) (hp : t.post n event = .ok t')
    (ht : Tenant t f k j events) :
    Tenant t' f k j (if k = n then events ++ [event] else events) := by
  obtain ⟨l, hl, rfl, rfl⟩ := ht
  obtain ⟨holder, hh, -, hpending⟩ := Table.pending_postIf hp
  refine ⟨l, hl, rfl, ?_⟩
  obtain ⟨key, hkey⟩ := h.holder hl
  rw [hpending]
  by_cases hn : l.index = n
  · rw [← hn, hkey] at hh
    cases hh
    rw [if_pos rfl, if_pos hn]
  · rw [if_neg hn, if_neg]
    rintro rfl
    exact hn (h.sound.holder_index hh)

/-- There is room for an event unless too many wait already. -/
theorem Tenancy.post_eq_ok (h : Tenancy t f) (ht : Tenant t f n id events)
    (hroom : events.length < mailboxDepth) (event : ε) : ∃ t', t.post n event = .ok t' := by
  obtain ⟨l, hl, rfl, rfl⟩ := ht
  obtain ⟨key, hkey⟩ := h.holder hl
  obtain ⟨m, hm⟩ := h.mailbox hl
  rw [Table.pending_of_mailbox? hm] at hroom
  exact ⟨_, Table.postIf_of_room hkey rfl hm hroom⟩

theorem Tenancy.leaseAt?_ne_none (h : Tenancy t f) (hv : Vacant f n) (hn : n < t.slots.length)
    (key : κ) : t.leaseAt? n key ≠ none := by
  rw [Ne, Table.leaseAt?_eq_none_iff, Bool.not_eq_false]
  exact Table.isIdle_of_holder? hn (h.vacant_iff.1 hv)

end

end ShortMessage.Transaction
