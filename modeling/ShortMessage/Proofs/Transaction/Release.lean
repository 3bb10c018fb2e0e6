import ShortMessage.Proofs.Transaction.Mailboxes

/-!
# Giving a slot back

A lease gives its slot back in three ways: it is released, and what waits for it can still be taken;
it is dropped, and its mailbox with it; or it retires, which is to be released and to get the oldest
event in one step (`retire_fst`).  In each way it has no slot any more and all others keep theirs
(`Sound.holder?_release`, `Sound.holder?_drop`, `Sound.holder?_retire`), even if the slot has a new
owner already, and the table stays in order.
-/

namespace ShortMessage.Transaction.Table

variable {ε κ : Type}

/-! ## Releasing and dropping -/

/-- The mailbox of a lease that is released stays, and is marked. -/
theorem mailbox?_release (t : Table ε κ) (l l' : Lease) :
    (t.release l).mailbox? l' =
      if l' = l then (t.mailbox? l).map fun m => { m with released := true }
      else t.mailbox? l' := by
  unfold release
  split
  · rename_i hr
    split
    · rename_i hl
      subst hl
      rcases hm : t.mailbox? l' with _ | m
      · rfl
      · rw [isReleased_of_mailbox? hm] at hr
        cases m
        simp_all
    · rfl
  · exact mailbox?_modifyMailbox (t := { t with slots := t.slots.set l.index none }) l l'
      fun _ => rfl

/-- A lease that is released has no slot any more, and all others keep theirs. -/
theorem Sound.holder?_release {t : Table ε κ} (ht : t.Sound) (l : Lease) (i : Nat) :
    (t.release l).holder? i = (t.holder? i).filter (·.lease ≠ l) := by
  have hkeep : (∀ h, t.holder? i = some h → h.lease ≠ l) →
      (t.holder? i).filter (·.lease ≠ l) = t.holder? i := by
    intro hne
    rcases hh : t.holder? i with _ | h
    · rfl
    · simp [hne h hh]
  unfold release
  split
  · rename_i hr
    rw [hkeep]
    rintro h hh rfl
    obtain ⟨m, hm, hr'⟩ := ht.holder_mailbox hh
    rw [isReleased_of_mailbox? hm, hr'] at hr
    cases hr
  · rename_i hr
    by_cases hi : i = l.index
    · subst hi
      obtain ⟨m, hm⟩ : ∃ m, t.mailbox? l = some m := by
        rcases hm : t.mailbox? l with _ | m
        · simp [isReleased, hm] at hr
        · exact ⟨m, rfl⟩
      obtain ⟨k, hk⟩ := ht.holder_of_unreleased hm (by
        rw [isReleased_of_mailbox? hm] at hr
        simpa using hr)
      rw [hk, holder?_modifyMailbox]
      have hlt := ht.index_lt hm
      simp [holder?, hlt, Option.filter]
    · rw [hkeep, holder?_modifyMailbox]
      · have hne : ¬ l.index = i := fun h => hi h.symm
        simp [holder?, hne]
      · rintro h hh rfl
        exact hi (ht.holder_index hh).symm

@[simp] theorem length_release (t : Table ε κ) (l : Lease) :
    (t.release l).slots.length = t.slots.length := by
  unfold release
  split <;> simp [modifyMailbox]

theorem issued_release (t : Table ε κ) (l : Lease) : (t.release l).issued = t.issued := by
  unfold release
  split <;> rfl

/-- Releasing a lease, or one that is released already or unknown, keeps the table in order. -/
theorem Sound.release {t : Table ε κ} (ht : t.Sound) (l : Lease) : (t.release l).Sound := by
  -- what a mailbox says but for the mark is as before
  have hfrom : ∀ {l' m'}, (t.release l).mailbox? l' = some m' →
      ∃ m, t.mailbox? l' = some m ∧ m'.queue = m.queue ∧
        (m'.released = false → l' ≠ l ∧ m.released = false) := by
    intro l' m' h
    rw [mailbox?_release] at h
    split at h
    · rename_i hl
      obtain ⟨m, hm, rfl⟩ := Option.map_eq_some_iff.1 h
      exact ⟨m, hl ▸ hm, rfl, by simp⟩
    · rename_i hl
      exact ⟨m', h, rfl, fun hr => ⟨hl, hr⟩⟩
  refine ⟨?_, ?_, ?_, ?_, ?_, ?_⟩
  · intro l' m' h
    obtain ⟨m, hm, -⟩ := hfrom h
    rw [issued_release]
    exact ht.serial_lt hm
  · intro l' m' h
    obtain ⟨m, hm, -⟩ := hfrom h
    rw [length_release]
    exact ht.index_lt hm
  · intro i h hh
    rw [ht.holder?_release] at hh
    exact ht.holder_index (Option.filter_eq_some_iff.1 hh).1
  · intro i h hh
    rw [ht.holder?_release, Option.filter_eq_some_iff] at hh
    obtain ⟨m, hm, hr⟩ := ht.holder_mailbox hh.1
    refine ⟨m, ?_, hr⟩
    rw [mailbox?_release, if_neg (by simpa using hh.2)]
    exact hm
  · intro l' m' h hr
    obtain ⟨m, hm, -, hback⟩ := hfrom h
    obtain ⟨hne, hr'⟩ := hback hr
    obtain ⟨k, hk⟩ := ht.holder_of_unreleased hm hr'
    exact ⟨k, by rw [ht.holder?_release, hk]; simp [hne]⟩
  · intro l' m' h
    obtain ⟨m, hm, hq, -⟩ := hfrom h
    rw [hq]
    exact ht.queue_le hm

/-- A lease that is dropped has no mailbox any more. -/
theorem mailbox?_drop (t : Table ε κ) (l l' : Lease) :
    (t.drop l).mailbox? l' = if l' = l then none else t.mailbox? l' := by
  have hfilter : (t.drop l).mailbox? l' =
      if l' = l then none else (t.release l).mailbox? l' := by
    show ((t.release l).mailboxes.filter (·.lease ≠ l)).find? (·.lease = l') = _
    rw [List.find?_filter]
    split
    · rename_i hl
      subst hl
      exact List.find?_eq_none.2 fun m _ => by simp
    · rename_i hl
      refine congrArg (fun p => (t.release l).mailboxes.find? p) (funext fun m => ?_)
      by_cases hm : m.lease = l'
      · simp [hm, hl]
      · simp [hm]
  rw [hfilter, mailbox?_release]
  split <;> rfl

/-- A lease that is dropped has no slot any more, and all others keep theirs. -/
theorem Sound.holder?_drop {t : Table ε κ} (ht : t.Sound) (l : Lease) (i : Nat) :
    (t.drop l).holder? i = (t.holder? i).filter (·.lease ≠ l) := ht.holder?_release l i

@[simp] theorem length_drop (t : Table ε κ) (l : Lease) :
    (t.drop l).slots.length = t.slots.length := length_release t l

/-- Dropping a lease keeps the table in order, also when its slot has a new owner. -/
theorem Sound.drop {t : Table ε κ} (ht : t.Sound) (l : Lease) : (t.drop l).Sound := by
  have hfrom : ∀ {l' m'}, (t.drop l).mailbox? l' = some m' → l' ≠ l ∧ t.mailbox? l' = some m' := by
    intro l' m' h
    rw [mailbox?_drop] at h
    split at h
    · cases h
    · rename_i hl
      exact ⟨hl, h⟩
  refine ⟨?_, ?_, ?_, ?_, ?_, ?_⟩
  · intro l' m' h
    show l'.serial < (t.release l).issued
    rw [issued_release]
    exact ht.serial_lt (hfrom h).2
  · intro l' m' h
    rw [length_drop]
    exact ht.index_lt (hfrom h).2
  · intro i h hh
    rw [ht.holder?_drop] at hh
    exact ht.holder_index (Option.filter_eq_some_iff.1 hh).1
  · intro i h hh
    rw [ht.holder?_drop, Option.filter_eq_some_iff] at hh
    obtain ⟨m, hm, hr⟩ := ht.holder_mailbox hh.1
    refine ⟨m, ?_, hr⟩
    rw [mailbox?_drop, if_neg (by simpa using hh.2)]
    exact hm
  · intro l' m' h hr
    obtain ⟨hne, hm⟩ := hfrom h
    obtain ⟨k, hk⟩ := ht.holder_of_unreleased hm hr
    exact ⟨k, by rw [ht.holder?_drop, hk]; simp [hne]⟩
  · intro l' m' h
    exact ht.queue_le (hfrom h).2

/-! ## What is pending, and what was given back -/

section

variable {t : Table ε κ}

/-- A released lease can still take what waits for it. -/
theorem pending_release (t : Table ε κ) (l l' : Lease) :
    (t.release l).pending l' = t.pending l' := by
  unfold pending
  rw [mailbox?_release]
  by_cases hl : l' = l
  · subst hl
    rcases t.mailbox? l' with _ | m
    · simp
    · simp
  · simp [hl]

theorem isReleased_release (t : Table ε κ) (l l' : Lease) :
    (t.release l).isReleased l' = if l' = l then true else t.isReleased l' := by
  unfold isReleased
  rw [mailbox?_release]
  by_cases hl : l' = l
  · subst hl
    rcases t.mailbox? l' with _ | m
    · simp
    · simp
  · simp [hl]

theorem pending_drop (t : Table ε κ) (l l' : Lease) :
    (t.drop l).pending l' = if l' = l then [] else t.pending l' := by
  unfold pending
  rw [mailbox?_drop]
  by_cases hl : l' = l
  · simp [hl]
  · simp [hl]

/-- A lease without a mailbox counts as released. -/
theorem isReleased_drop (t : Table ε κ) (l l' : Lease) :
    (t.drop l).isReleased l' = if l' = l then true else t.isReleased l' := by
  unfold isReleased
  rw [mailbox?_drop]
  by_cases hl : l' = l
  · simp [hl]
  · simp [hl]

/-- A lease that retires gets the oldest event that waits for it. -/
theorem retire_fst (t : Table ε κ) (l : Lease) : (t.retire l).1 = (t.pending l).head? := by
  unfold retire
  split
  · rename_i event t' ht
    rw [pending_take? ht]
    rfl
  · rename_i ht
    rw [take?_eq_none_iff.1 ht]
    rfl

/-- The event that a lease gets when it retires is the one event that is taken. -/
theorem pending_retire (t : Table ε κ) (l l' : Lease) :
    (t.retire l).2.pending l' = if l' = l then (t.pending l).tail else t.pending l' := by
  unfold retire
  split
  · rename_i event t' ht
    rw [pending_release]
    by_cases hl : l' = l
    · rw [if_pos hl, hl, pending_take? ht, List.tail_cons]
    · rw [if_neg hl, pending_take?_of_ne ht hl]
  · rename_i ht
    rw [pending_release]
    by_cases hl : l' = l
    · rw [if_pos hl, hl, take?_eq_none_iff.1 ht, List.tail_nil]
    · rw [if_neg hl]

theorem isReleased_retire (t : Table ε κ) (l l' : Lease) :
    (t.retire l).2.isReleased l' = if l' = l then true else t.isReleased l' := by
  unfold retire
  split
  · rename_i event t' ht
    rw [isReleased_release, isReleased_take? ht]
  · rw [isReleased_release]

/-- A lease that retires keeps its mailbox, marked and without the event that it got. -/
theorem mailbox?_retire (t : Table ε κ) (l : Lease) :
    (t.retire l).2.mailbox? l =
      (t.mailbox? l).map fun m => { m with queue := m.queue.tail, released := true } := by
  unfold retire
  split
  · rename_i event t' htake
    obtain ⟨m, rest, hm, hq, rfl⟩ := take?_eq_some htake
    rw [mailbox?_release, if_pos rfl, mailbox?_modifyMailbox _ _ (by intro; rfl), if_pos rfl, hm]
    rfl
  · rename_i htake
    rw [mailbox?_release, if_pos rfl]
    rcases hm : t.mailbox? l with _ | m
    · rfl
    · have hempty := take?_eq_none_iff.1 htake
      rw [pending_of_mailbox? hm] at hempty
      simp [hempty]

/-- The mailboxes of others stay as they are when a lease retires. -/
theorem mailbox?_retire_of_ne (t : Table ε κ) {l l' : Lease} (hne : l' ≠ l) :
    (t.retire l).2.mailbox? l' = t.mailbox? l' := by
  unfold retire
  split
  · rename_i event t' ht
    rw [mailbox?_release, if_neg hne, mailbox?_take?_of_ne ht hne]
  · rw [mailbox?_release, if_neg hne]

theorem isSome_mailbox?_release (t : Table ε κ) (l l' : Lease) :
    ((t.release l).mailbox? l').isSome = (t.mailbox? l').isSome := by
  rw [mailbox?_release]
  split
  · rename_i hl
    rw [hl, Option.isSome_map]
  · rfl

theorem isSome_mailbox?_retire (t : Table ε κ) (l l' : Lease) :
    ((t.retire l).2.mailbox? l').isSome = (t.mailbox? l').isSome := by
  unfold retire
  split
  · rename_i event t' ht
    rw [isSome_mailbox?_release, isSome_mailbox?_take? ht]
  · rw [isSome_mailbox?_release]

theorem issued_retire (t : Table ε κ) (l : Lease) : (t.retire l).2.issued = t.issued := by
  unfold retire
  split
  · rename_i event t' ht
    rw [issued_release, issued_take? ht]
  · rw [issued_release]

theorem length_retire (t : Table ε κ) (l : Lease) :
    (t.retire l).2.slots.length = t.slots.length := by
  unfold retire
  split
  · rename_i event t' ht
    rw [length_release, length_take? ht]
  · rw [length_release]

/-- A lease that retires has no slot any more, and all others keep theirs. -/
theorem Sound.holder?_retire (ht : t.Sound) (l : Lease) (i : Nat) :
    (t.retire l).2.holder? i = (t.holder? i).filter (·.lease ≠ l) := by
  unfold retire
  split
  · rename_i event t' htake
    rw [(ht.take? htake).holder?_release, holder?_take? htake]
  · rw [ht.holder?_release]

/-- Retiring a lease keeps the table in order. -/
theorem Sound.retire (ht : t.Sound) (l : Lease) : (t.retire l).2.Sound := by
  unfold Table.retire
  split
  · rename_i event t' htake
    exact (ht.take? htake).release l
  · exact ht.release l

end

end ShortMessage.Transaction.Table
