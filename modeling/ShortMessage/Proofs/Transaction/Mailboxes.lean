import ShortMessage.Proofs.Transaction.Slots

/-!
# Posting and taking

An event goes to the mailbox of the slot's owner, behind the others (`postIf_eq_ok`), and the oldest
comes out first (`take?_eq_some`).  Both change the queue of one mailbox and nothing else, so that
they keep `Sound` (`Sound.modifyMailbox`), and the lemmas for each say what of the table they leave
alone.
-/

namespace ShortMessage.Transaction.Table

variable {ε κ : Type}

/-! ## Posting and taking -/

/-- An event that is posted goes behind the others of the owner, whose key accepts it and who has
room for it. -/
theorem postIf_eq_ok {t t' : Table ε κ} {i : Nat} {event : ε} {accepts : κ → ε → Bool}
    (h : t.postIf i event accepts = .ok t') :
    ∃ holder m, t.holder? i = some holder ∧ accepts holder.key event = true ∧
      t.mailbox? holder.lease = some m ∧ m.queue.length < mailboxDepth ∧
      t' = t.modifyMailbox holder.lease fun m => { m with queue := m.queue ++ [event] } := by
  unfold postIf at h
  split at h
  · rename_i holder hslot
    split at h
    · rename_i hacc
      split at h
      · rename_i m hm
        split at h
        · rename_i hlen
          cases h
          exact ⟨holder, m, by simp [holder?, hslot], hacc, hm, hlen, rfl⟩
        · cases h
      · cases h
    · cases h
  · cases h

/-- An event is posted whenever there is an owner whose key accepts it and who has room for it. -/
theorem postIf_of_room {t : Table ε κ} {i : Nat} {event : ε} {accepts : κ → ε → Bool}
    {holder : Holder κ} {m : Mailbox ε} (hh : t.holder? i = some holder)
    (hacc : accepts holder.key event = true) (hm : t.mailbox? holder.lease = some m)
    (hlen : m.queue.length < mailboxDepth) :
    t.postIf i event accepts =
      .ok (t.modifyMailbox holder.lease fun m => { m with queue := m.queue ++ [event] }) := by
  have hslot : t.slots[i]? = some (some holder) := by
    unfold holder? at hh
    rcases hs : t.slots[i]? with _ | o
    · simp [hs] at hh
    · simpa [hs] using hh
  simp [postIf, hslot, hacc, hm, hlen]

/-- What is taken was the oldest event of the lease, and the others stay. -/
theorem take?_eq_some {t t' : Table ε κ} {l : Lease} {event : ε}
    (h : t.take? l = some (event, t')) :
    ∃ m rest, t.mailbox? l = some m ∧ m.queue = event :: rest ∧
      t' = t.modifyMailbox l fun m => { m with queue := m.queue.tail } := by
  unfold take? pending at h
  rcases hm : t.mailbox? l with _ | m
  · simp [hm] at h
  · rcases hq : m.queue with _ | ⟨e, rest⟩
    · simp [hm, hq] at h
    · simp only [hm, hq, Option.some.injEq, Prod.mk.injEq] at h
      obtain ⟨rfl, rfl⟩ := h
      exact ⟨m, rest, rfl, hq, rfl⟩

theorem take?_eq_none_iff {t : Table ε κ} {l : Lease} : t.take? l = none ↔ t.pending l = [] := by
  unfold take?
  split <;> simp_all

theorem take?_of_pending {t : Table ε κ} {l : Lease} {event : ε} {rest : List ε}
    (h : t.pending l = event :: rest) :
    t.take? l = some (event, t.modifyMailbox l fun m => { m with queue := m.queue.tail }) := by
  simp [take?, h]

/-! ## Changing one queue -/

/-- What waits for others is not changed. -/
theorem pending_modifyMailbox {t : Table ε κ} {change : Mailbox ε → Mailbox ε} {l l' : Lease}
    (hlease : ∀ m, (change m).lease = m.lease) (hne : l' ≠ l) :
    (t.modifyMailbox l change).pending l' = t.pending l' := by
  simp [pending, mailbox?_modifyMailbox l l' hlease, hne]

theorem isSome_mailbox?_modifyMailbox {t : Table ε κ} {change : Mailbox ε → Mailbox ε}
    {l : Lease} (l' : Lease) (hlease : ∀ m, (change m).lease = m.lease) :
    ((t.modifyMailbox l change).mailbox? l').isSome = (t.mailbox? l').isSome := by
  rw [mailbox?_modifyMailbox l l' hlease]
  split
  · rename_i hl; subst hl; simp
  · rfl

theorem isReleased_modifyMailbox {t : Table ε κ} {change : Mailbox ε → Mailbox ε} {l : Lease}
    (l' : Lease) (hlease : ∀ m, (change m).lease = m.lease)
    (hreleased : ∀ m, (change m).released = m.released) :
    (t.modifyMailbox l change).isReleased l' = t.isReleased l' := by
  unfold isReleased
  rw [mailbox?_modifyMailbox l l' hlease]
  by_cases hl : l' = l
  · subst hl
    rcases t.mailbox? l' with _ | m
    · simp
    · simp [hreleased]
  · rw [if_neg hl]

/-- A change that releases no mailbox and does not overfill one keeps the table in order. -/
theorem Sound.modifyMailbox {t : Table ε κ} (ht : t.Sound) (l : Lease)
    {change : Mailbox ε → Mailbox ε} (hlease : ∀ m, (change m).lease = m.lease)
    (hreleased : ∀ m, (change m).released = m.released)
    (hqueue : ∀ m, t.mailbox? l = some m → (change m).queue.length ≤ mailboxDepth) :
    (t.modifyMailbox l change).Sound := by
  have hmail := fun l' => mailbox?_modifyMailbox (t := t) l l' hlease
  -- a changed mailbox comes from one with the same lease and the same mark
  have hfrom : ∀ {l' m'}, (t.modifyMailbox l change).mailbox? l' = some m' →
      ∃ m, t.mailbox? l' = some m ∧ m'.released = m.released := by
    intro l' m' h
    rw [hmail] at h
    split at h
    · rename_i hl
      obtain ⟨m, hm, rfl⟩ := Option.map_eq_some_iff.1 h
      exact ⟨m, hl ▸ hm, hreleased m⟩
    · exact ⟨m', h, rfl⟩
  refine ⟨?_, ?_, ?_, ?_, ?_, ?_⟩
  · intro l' m' h
    obtain ⟨m, hm, -⟩ := hfrom h
    exact ht.serial_lt hm
  · intro l' m' h
    obtain ⟨m, hm, -⟩ := hfrom h
    exact ht.index_lt hm
  · intro i h hh
    exact ht.holder_index hh
  · intro i h hh
    obtain ⟨m, hm, hr⟩ := ht.holder_mailbox hh
    rw [hmail]
    by_cases hl : h.lease = l
    · exact ⟨change m, by rw [if_pos hl, ← hl, hm]; rfl, by rw [hreleased, hr]⟩
    · exact ⟨m, by rw [if_neg hl]; exact hm, hr⟩
  · intro l' m' h hr
    obtain ⟨m, hm, hr'⟩ := hfrom h
    exact ht.holder_of_unreleased hm (hr' ▸ hr)
  · intro l' m' h
    rw [hmail] at h
    split at h
    · obtain ⟨m, hm, rfl⟩ := Option.map_eq_some_iff.1 h
      exact hqueue m hm
    · exact ht.queue_le h

/-! ### What posting changes -/

section

variable {t t' : Table ε κ} {i : Nat} {event : ε} {accepts : κ → ε → Bool}

theorem Sound.postIf (ht : t.Sound) (h : t.postIf i event accepts = .ok t') : t'.Sound := by
  obtain ⟨holder, m, -, -, hm, hlen, rfl⟩ := postIf_eq_ok h
  refine ht.modifyMailbox _ (fun _ => rfl) (fun _ => rfl) fun m' hm' => ?_
  rw [hm] at hm'
  cases hm'
  simp only [List.length_append, List.length_cons, List.length_nil]
  omega

/-- An event that is posted waits for the owner of the slot and for nobody else. -/
theorem pending_postIf (h : t.postIf i event accepts = .ok t') :
    ∃ holder, t.holder? i = some holder ∧ accepts holder.key event = true ∧
      ∀ l, t'.pending l = if l = holder.lease then t.pending l ++ [event] else t.pending l := by
  obtain ⟨holder, m, hh, hacc, hm, -, rfl⟩ := postIf_eq_ok h
  refine ⟨holder, hh, hacc, fun l => ?_⟩
  split
  · rename_i hl
    subst hl
    rw [pending_of_mailbox? hm]
    refine pending_of_mailbox? (m := { m with queue := m.queue ++ [event] }) ?_
    rw [mailbox?_modifyMailbox _ _ (by intro; rfl), if_pos rfl, hm]
    rfl
  · rename_i hl
    exact pending_modifyMailbox (by intro; rfl) hl

/-- Posting gives no slot to anybody. -/
theorem holder?_postIf (h : t.postIf i event accepts = .ok t') (j : Nat) :
    t'.holder? j = t.holder? j := by
  obtain ⟨holder, m, -, -, -, -, rfl⟩ := postIf_eq_ok h
  rfl

theorem isReleased_postIf (h : t.postIf i event accepts = .ok t') (l : Lease) :
    t'.isReleased l = t.isReleased l := by
  obtain ⟨holder, m, -, -, -, -, rfl⟩ := postIf_eq_ok h
  exact isReleased_modifyMailbox l (by intro; rfl) (by intro; rfl)

theorem isSome_mailbox?_postIf (h : t.postIf i event accepts = .ok t') (l : Lease) :
    (t'.mailbox? l).isSome = (t.mailbox? l).isSome := by
  obtain ⟨holder, m, -, -, -, -, rfl⟩ := postIf_eq_ok h
  exact isSome_mailbox?_modifyMailbox l (by intro; rfl)

theorem issued_postIf (h : t.postIf i event accepts = .ok t') : t'.issued = t.issued := by
  obtain ⟨holder, m, -, -, -, -, rfl⟩ := postIf_eq_ok h
  rfl

theorem length_postIf (h : t.postIf i event accepts = .ok t') :
    t'.slots.length = t.slots.length := by
  obtain ⟨holder, m, -, -, -, -, rfl⟩ := postIf_eq_ok h
  rfl

end

/-! ### What taking changes -/

section

variable {t t' : Table ε κ} {l : Lease} {event : ε}

theorem Sound.take? (ht : t.Sound) (h : t.take? l = some (event, t')) : t'.Sound := by
  obtain ⟨m, rest, hm, hq, rfl⟩ := take?_eq_some h
  refine ht.modifyMailbox _ (fun _ => rfl) (fun _ => rfl) fun m' hm' => ?_
  have := ht.queue_le hm'
  simp only [List.length_tail]
  omega

/-- What is taken was the first that waited. -/
theorem pending_take? (h : t.take? l = some (event, t')) : t.pending l = event :: t'.pending l := by
  obtain ⟨m, rest, hm, hq, rfl⟩ := take?_eq_some h
  rw [pending_of_mailbox? hm, hq]
  refine congrArg (event :: ·) (Eq.symm ?_)
  refine (pending_of_mailbox? (m := { m with queue := m.queue.tail }) ?_).trans (by simp [hq])
  rw [mailbox?_modifyMailbox _ _ (by intro; rfl), if_pos rfl, hm]
  rfl

/-- Nothing is taken from others. -/
theorem pending_take?_of_ne (h : t.take? l = some (event, t')) {l' : Lease} (hne : l' ≠ l) :
    t'.pending l' = t.pending l' := by
  obtain ⟨m, rest, -, -, rfl⟩ := take?_eq_some h
  exact pending_modifyMailbox (by intro; rfl) hne

theorem mailbox?_take?_of_ne (h : t.take? l = some (event, t')) {l' : Lease} (hne : l' ≠ l) :
    t'.mailbox? l' = t.mailbox? l' := by
  obtain ⟨m, rest, -, -, rfl⟩ := take?_eq_some h
  rw [mailbox?_modifyMailbox _ _ (by intro; rfl), if_neg hne]

theorem holder?_take? (h : t.take? l = some (event, t')) (j : Nat) :
    t'.holder? j = t.holder? j := by
  obtain ⟨m, rest, -, -, rfl⟩ := take?_eq_some h
  rfl

theorem isReleased_take? (h : t.take? l = some (event, t')) (l' : Lease) :
    t'.isReleased l' = t.isReleased l' := by
  obtain ⟨m, rest, -, -, rfl⟩ := take?_eq_some h
  exact isReleased_modifyMailbox l' (by intro; rfl) (by intro; rfl)

theorem isSome_mailbox?_take? (h : t.take? l = some (event, t')) (l' : Lease) :
    (t'.mailbox? l').isSome = (t.mailbox? l').isSome := by
  obtain ⟨m, rest, -, -, rfl⟩ := take?_eq_some h
  exact isSome_mailbox?_modifyMailbox l' (by intro; rfl)

theorem issued_take? (h : t.take? l = some (event, t')) : t'.issued = t.issued := by
  obtain ⟨m, rest, -, -, rfl⟩ := take?_eq_some h
  rfl

theorem length_take? (h : t.take? l = some (event, t')) :
    t'.slots.length = t.slots.length := by
  obtain ⟨m, rest, -, -, rfl⟩ := take?_eq_some h
  rfl

end

end ShortMessage.Transaction.Table
