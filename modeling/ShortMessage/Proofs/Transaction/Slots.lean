import Mathlib.Tactic.Common
import ShortMessage.Transaction.Table

/-!
# Slot tables that are in order

A table is looked at through two functions only: `holder?` says who has a slot, and `mailbox?`
what has come for a lease.  `Sound` says that the two agree: a slot is held exactly by the lease
whose mailbox was not released.

Leasing keeps to that: `Sound.leased_of_lease?` and `Sound.leased_of_leaseAt?` give a new lease an
idle slot and an empty mailbox of its own, and nothing else changes (`Leased`); any slot is refused
only when all are held (`lease?_eq_none_iff`).
-/

namespace ShortMessage.Transaction.Table

variable {ε κ : Type}

/-- The owner of a slot. -/
def holder? (t : Table ε κ) (index : Nat) : Option (Holder κ) := t.slots[index]?.join

/-- The slots and the mailboxes tell the same story. -/
structure Sound (t : Table ε κ) : Prop where
  serial_lt : ∀ {l m}, t.mailbox? l = some m → l.serial < t.issued
  index_lt : ∀ {l m}, t.mailbox? l = some m → l.index < t.slots.length
  holder_index : ∀ {i h}, t.holder? i = some h → h.lease.index = i
  holder_mailbox : ∀ {i h}, t.holder? i = some h →
    ∃ m, t.mailbox? h.lease = some m ∧ m.released = false
  holder_of_unreleased : ∀ {l m}, t.mailbox? l = some m → m.released = false →
    ∃ key, t.holder? l.index = some ⟨l, key⟩
  queue_le : ∀ {l m}, t.mailbox? l = some m → m.queue.length ≤ mailboxDepth

/-! ## The two views -/

/-- Changing the mailbox of a lease changes no other, as long as the lease keeps it. -/
theorem mailbox?_modifyMailbox {t : Table ε κ} {change : Mailbox ε → Mailbox ε} (l l' : Lease)
    (hchange : ∀ m, (change m).lease = m.lease) :
    (t.modifyMailbox l change).mailbox? l' =
      if l' = l then (t.mailbox? l).map change else t.mailbox? l' := by
  unfold modifyMailbox mailbox?
  induction t.mailboxes with
  | nil => simp
  | cons m ms ih =>
    simp only [List.map_cons, List.find?_cons]
    by_cases hm : m.lease = l
    · by_cases hl : l' = l
      · simp [hm, hl, hchange]
      · have hne : ¬ l = l' := fun h => hl h.symm
        simpa [hm, hl, hne, hchange] using ih
    · by_cases hl : l' = l
      · simpa [hm, hl] using ih
      · by_cases hm' : m.lease = l'
        · simp [hm', hl]
        · simpa [hm, hl, hm'] using ih

@[simp] theorem holder?_modifyMailbox (t : Table ε κ) (l : Lease)
    (change : Mailbox ε → Mailbox ε) (i : Nat) :
    (t.modifyMailbox l change).holder? i = t.holder? i := rfl

theorem pending_of_mailbox? {t : Table ε κ} {l : Lease} {m : Mailbox ε}
    (h : t.mailbox? l = some m) : t.pending l = m.queue := by
  simp [pending, h]

theorem isReleased_of_mailbox? {t : Table ε κ} {l : Lease} {m : Mailbox ε}
    (h : t.mailbox? l = some m) : t.isReleased l = m.released := by
  simp [isReleased, h]

theorem isIdle_iff {t : Table ε κ} {i : Nat} : t.isIdle i = true ↔ t.slots[i]? = some none := by
  unfold isIdle
  split <;> simp_all

theorem isHeld_iff {t : Table ε κ} {i : Nat} : t.isHeld i = true ↔ (t.holder? i).isSome := by
  unfold isHeld holder?
  split
  · rename_i h; simp [h]
  · rename_i h
    rcases hi : t.slots[i]? with _ | _ | x
    · simp
    · simp
    · exact absurd hi (h x)

theorem isHeld_eq_false_iff {t : Table ε κ} {i : Nat} :
    t.isHeld i = false ↔ t.holder? i = none := by
  rw [← Bool.not_eq_true, isHeld_iff]
  simp

theorem holder?_of_isIdle {t : Table ε κ} {i : Nat} (h : t.isIdle i = true) :
    t.holder? i = none := by
  simp [holder?, isIdle_iff.1 h]

/-- A slot of the table that nobody owns is idle. -/
theorem isIdle_of_holder? {t : Table ε κ} {i : Nat} (hi : i < t.slots.length)
    (h : t.holder? i = none) : t.isIdle i = true := by
  rw [isIdle_iff]
  obtain ⟨o, ho⟩ : ∃ o, t.slots[i]? = some o := ⟨_, List.getElem?_eq_getElem hi⟩
  cases o with
  | none => exact ho
  | some x => simp [holder?, ho] at h

theorem isIdle_lt {t : Table ε κ} {i : Nat} (h : t.isIdle i = true) : i < t.slots.length := by
  by_contra hge
  have hslot := isIdle_iff.1 h
  rw [List.getElem?_eq_none (by omega)] at hslot
  cases hslot

/-- A table of idle slots is in order. -/
theorem sound_idle (capacity cursor : Nat) : (idle capacity cursor : Table ε κ).Sound := by
  have hmail : ∀ l, (idle capacity cursor : Table ε κ).mailbox? l = none := fun l => rfl
  have hold : ∀ i, (idle capacity cursor : Table ε κ).holder? i = none := by
    intro i
    rcases h : (List.replicate capacity (none : Option (Holder κ)))[i]? with _ | o
    · simp [holder?, idle, h]
    · have := List.eq_of_mem_replicate (List.mem_of_getElem? h)
      simp [holder?, idle, h, this]
  exact ⟨by simp [hmail], by simp [hmail], by simp [hold], by simp [hold], by simp [hmail],
    by simp [hmail]⟩

@[simp] theorem mailbox?_idle (capacity cursor : Nat) (l : Lease) :
    (idle capacity cursor : Table ε κ).mailbox? l = none := rfl

/-! ## Leasing -/

/-- `l` is a new lease, and `t'` the table with it. -/
structure Leased (t : Table ε κ) (key : κ) (l : Lease) (t' : Table ε κ) : Prop where
  idle : t.holder? l.index = none
  index_lt : l.index < t.slots.length
  fresh : t.mailbox? l = none
  holder : ∀ i, t'.holder? i = if i = l.index then some ⟨l, key⟩ else t.holder? i
  mailbox : ∀ l', t'.mailbox? l' = if l' = l then some { lease := l } else t.mailbox? l'
  length : t'.slots.length = t.slots.length
  serial : l.serial = t.issued
  issued : t'.issued = t.issued + 1
  sound : t'.Sound

/-- The slot that is given away has a new owner, and no other slot has. -/
theorem holder?_occupy {t : Table ε κ} {i : Nat} (key : κ) (hi : i < t.slots.length) (j : Nat) :
    (t.occupy i key).2.holder? j =
      if j = i then some ⟨⟨t.issued, i⟩, key⟩ else t.holder? j := by
  unfold holder? occupy
  by_cases hj : j = i
  · subst hj
    simp [hi]
  · have hne : ¬ i = j := fun h => hj h.symm
    simp [hj, hne]

/-- The new lease has an empty mailbox, and no other mailbox changes. -/
theorem mailbox?_occupy {t : Table ε κ} {i : Nat} (key : κ)
    (hfresh : t.mailbox? ⟨t.issued, i⟩ = none) (l : Lease) :
    (t.occupy i key).2.mailbox? l =
      if l = ⟨t.issued, i⟩ then some { lease := ⟨t.issued, i⟩ } else t.mailbox? l := by
  by_cases hl : l = ⟨t.issued, i⟩
  · subst hl
    unfold mailbox? at hfresh
    simp [mailbox?, occupy, List.find?_append, hfresh]
  · have hne : ¬ (⟨t.issued, i⟩ : Lease) = l := fun h => hl h.symm
    simp [mailbox?, occupy, List.find?_append, hl, hne]

/-- Giving an idle slot away is leasing it. -/
theorem Sound.leased_occupy {t : Table ε κ} (ht : t.Sound) {i : Nat} (key : κ)
    (hi : t.isIdle i = true) : Leased t key (t.occupy i key).1 (t.occupy i key).2 := by
  have hlt : i < t.slots.length := isIdle_lt hi
  have hnew : ∀ l m, t.mailbox? l = some m → l ≠ ⟨t.issued, i⟩ := by
    rintro l m hm rfl
    exact absurd (ht.serial_lt hm) (by simp)
  have hfresh : t.mailbox? ⟨t.issued, i⟩ = none := by
    rcases h : t.mailbox? ⟨t.issued, i⟩ with _ | m
    · rfl
    · exact absurd rfl (hnew _ m h)
  have hholder := holder?_occupy key hlt
  have hmail := mailbox?_occupy key hfresh
  refine ⟨holder?_of_isIdle hi, hlt, hfresh, hholder, hmail, by simp [occupy], rfl, rfl, ?_⟩
  refine ⟨?_, ?_, ?_, ?_, ?_, ?_⟩
  · intro l m hm
    rw [hmail] at hm
    show l.serial < t.issued + 1
    split at hm
    · rename_i hl; subst hl; simp
    · exact Nat.lt_succ_of_lt (ht.serial_lt hm)
  · intro l m hm
    rw [hmail] at hm
    show l.index < (t.slots.set i _).length
    rw [List.length_set]
    split at hm
    · rename_i hl; subst hl; exact hlt
    · exact ht.index_lt hm
  · intro j h hh
    rw [hholder] at hh
    split at hh
    · rename_i hj; cases hh; exact hj.symm
    · exact ht.holder_index hh
  · intro j h hh
    rw [hholder] at hh
    split at hh
    · cases hh; exact ⟨{ lease := ⟨t.issued, i⟩ }, by simp [hmail], rfl⟩
    · obtain ⟨m, hm, hr⟩ := ht.holder_mailbox hh
      exact ⟨m, by rw [hmail, if_neg (hnew _ m hm)]; exact hm, hr⟩
  · intro l m hm hr
    rw [hmail] at hm
    split at hm
    · rename_i hl; subst hl; exact ⟨key, by simp [hholder]⟩
    · obtain ⟨k, hk⟩ := ht.holder_of_unreleased hm hr
      refine ⟨k, ?_⟩
      rw [hholder, if_neg]
      · exact hk
      · rintro rfl
        rw [holder?_of_isIdle hi] at hk
        cases hk
  · intro l m hm
    rw [hmail] at hm
    split at hm
    · cases hm; simp
    · exact ht.queue_le hm

/-- Whoever leases a slot by its index gets a new lease of that slot. -/
theorem Sound.leased_of_leaseAt? {t t' : Table ε κ} (ht : t.Sound) {i : Nat} {key : κ} {l : Lease}
    (h : t.leaseAt? i key = some (l, t')) : Leased t key l t' ∧ l.index = i := by
  unfold leaseAt? at h
  split at h
  · rename_i hi
    cases h
    exact ⟨ht.leased_occupy key hi, rfl⟩
  · cases h

/-- A slot is refused by its index exactly when it is not idle. -/
theorem leaseAt?_eq_none_iff {t : Table ε κ} {i : Nat} {key : κ} :
    t.leaseAt? i key = none ↔ t.isIdle i = false := by
  unfold leaseAt?
  split <;> simp_all

/-- Whoever leases any slot gets a new lease. -/
theorem Sound.leased_of_lease? {t t' : Table ε κ} (ht : t.Sound) {key : κ} {l : Lease}
    (h : t.lease? key = some (l, t')) : Leased t key l t' := by
  unfold lease? at h
  obtain ⟨i, hfind, hocc⟩ := Option.map_eq_some_iff.1 h
  have hidle : t.isIdle i = true := List.find?_some hfind
  -- the cursor is no part of either view
  have hmoved : Sound { t with cursor := (i + 1) % t.slots.length } :=
    ⟨ht.serial_lt, ht.index_lt, ht.holder_index, ht.holder_mailbox, ht.holder_of_unreleased,
      ht.queue_le⟩
  have hl := hmoved.leased_occupy (i := i) key hidle
  rw [hocc] at hl
  exact ⟨hl.idle, hl.index_lt, hl.fresh, hl.holder, hl.mailbox, hl.length, hl.serial, hl.issued,
    hl.sound⟩

/-- A search looks at every slot. -/
theorem mem_searchOrder {t : Table ε κ} {i : Nat} (hi : i < t.slots.length) :
    i ∈ t.searchOrder := by
  refine List.mem_map.2 ⟨(i + t.slots.length - t.cursor % t.slots.length) % t.slots.length, ?_, ?_⟩
  · exact List.mem_range.2 (Nat.mod_lt _ (by omega))
  · have hc : t.cursor % t.slots.length < t.slots.length := Nat.mod_lt _ (by omega)
    rw [Nat.add_mod_mod, ← Nat.mod_add_mod]
    have : t.cursor % t.slots.length + (i + t.slots.length - t.cursor % t.slots.length) =
        i + t.slots.length := by omega
    rw [this, Nat.add_mod_right, Nat.mod_eq_of_lt hi]

/-- A lease is refused exactly when all slots are held. -/
theorem lease?_eq_none_iff {t : Table ε κ} {key : κ} :
    t.lease? key = none ↔ ∀ i < t.slots.length, (t.holder? i).isSome := by
  unfold lease?
  rw [Option.map_eq_none_iff, List.find?_eq_none]
  constructor
  · intro h i hi
    rcases hh : t.holder? i with _ | x
    · exact absurd (isIdle_of_holder? hi hh) (h i (mem_searchOrder hi))
    · rfl
  · intro h i _ hidle
    have hheld := h i (isIdle_lt hidle)
    rw [holder?_of_isIdle hidle] at hheld
    cases hheld

section

variable {t t' : Table ε κ} {key : κ} {l : Lease}

/-- Nothing waits for a new lease, and what waits for others goes on waiting. -/
theorem Leased.pending (h : Leased t key l t') (l' : Lease) :
    t'.pending l' = if l' = l then [] else t.pending l' := by
  unfold Table.pending
  rw [h.mailbox]
  by_cases hl : l' = l
  · simp [hl]
  · simp [hl]

theorem Leased.isReleased (h : Leased t key l t') (l' : Lease) :
    t'.isReleased l' = if l' = l then false else t.isReleased l' := by
  unfold Table.isReleased
  rw [h.mailbox]
  by_cases hl : l' = l
  · simp [hl]
  · simp [hl]

end

end ShortMessage.Transaction.Table
