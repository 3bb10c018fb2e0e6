import Mathlib.Data.List.Nodup
import ShortMessage.Proofs.Transaction.Operations

/-!
# Who has a slot, and who gets its events

An index is leased again while the lease that had it before may still be around: a transaction that
has retired keeps its mailbox, and drops its lease whenever it ends.  So an index alone says neither
who is meant by an event nor who may give the slot back.  Here both are read off the history, which
knows what the table does not store:

* `made`, `Live`, `Unreleased` — the leases that were made, those not yet dropped, and those that
  were not retired either;
* `delivered` and `taken` — what was posted to a slot while a lease had it, and what it received;
* `Standing` — the life of one lease, from nothing to its mailbox to nothing again, and
  `Standing.step`: what one operation does to it;
* `owned_of_run` — after every run a slot is held by the one lease that is unreleased, and events
  reach no other.
-/

namespace ShortMessage.Transaction

/-- The event that is handed back. -/
def Undelivered.event {ε : Type} : Undelivered ε → ε
  | .noOwner event | .refused event => event

namespace Table

variable {ε κ : Type}

/-! ## What a history says -/

/-- The lease that is made in a step. -/
def Outcome.lease? : Outcome ε → Option Lease
  | .leased l => some l
  | _ => none

/-- The event that reaches a lease in a step: it has the slot that the event is posted to. -/
def deliveredBy? (l : Lease) (tr : Entry ε κ) : Option ε :=
  match tr.move, tr.events with
  | .post index event _, [.posted] =>
    if (tr.before.holder? index).map (·.lease) = some l then some event else none
  | _, _ => none

/-- The event that a lease receives in a step. -/
def takenBy? (l : Lease) (tr : Entry ε κ) : Option ε :=
  match tr.move, tr.events with
  | .take l', [.received event] | .retire l', [.received event] =>
    if l' = l then some event else none
  | _, _ => none

/-- All leases that were made. -/
def made (h : List (Entry ε κ)) : List Lease :=
  h.flatMap fun tr => tr.events.filterMap Outcome.lease?

def Retired (h : List (Entry ε κ)) (l : Lease) : Prop := ∃ tr ∈ h, tr.move = .retire l

def Dropped (h : List (Entry ε κ)) (l : Lease) : Prop := ∃ tr ∈ h, tr.move = .drop l

/-- A lease that was made and not dropped. -/
def Live (h : List (Entry ε κ)) (l : Lease) : Prop := l ∈ made h ∧ ¬Dropped h l

/-- A live lease that was not retired. -/
def Unreleased (h : List (Entry ε κ)) (l : Lease) : Prop := Live h l ∧ ¬Retired h l

/-- All events that reached a lease, the oldest first. -/
def delivered (h : List (Entry ε κ)) (l : Lease) : List ε := h.filterMap (deliveredBy? l)

/-- All events that a lease received, the oldest first. -/
def taken (h : List (Entry ε κ)) (l : Lease) : List ε := h.filterMap (takenBy? l)

section

variable {h : List (Entry ε κ)} {tr : Entry ε κ} {l : Lease}

theorem made_snoc : made (h ++ [tr]) = made h ++ tr.events.filterMap Outcome.lease? := by
  simp [made]

theorem delivered_snoc : delivered (h ++ [tr]) l = delivered h l ++ (deliveredBy? l tr).toList :=
  filterMap_snoc _

theorem taken_snoc : taken (h ++ [tr]) l = taken h l ++ (takenBy? l tr).toList := filterMap_snoc _

theorem retired_snoc : Retired (h ++ [tr]) l ↔ Retired h l ∨ tr.move = .retire l := by
  simp [Retired, or_and_right, exists_or]

theorem dropped_snoc : Dropped (h ++ [tr]) l ↔ Dropped h l ∨ tr.move = .drop l := by
  simp [Dropped, or_and_right, exists_or]

end

/-! ## The life of a lease -/

/-- What has become of a lease, and what the table knows of it. -/
inductive Standing (h : List (Entry ε κ)) (t : Table ε κ) (l : Lease) : Prop where
  | unmade : l ∉ made h → ¬Retired h l → ¬Dropped h l → delivered h l = [] → taken h l = [] →
      t.mailbox? l = none → Standing h t l
  | live (m : Mailbox ε) : Live h l → (m.released = true ↔ Retired h l) →
      delivered h l = taken h l ++ m.queue → t.mailbox? l = some m → Standing h t l
  | dropped : l ∈ made h → Dropped h l → taken h l <+: delivered h l → t.mailbox? l = none →
      Standing h t l

section

variable {h : List (Entry ε κ)} {t t' : Table ε κ} {l : Lease} {m : Mailbox ε} (tr : Entry ε κ)

/-- A lease that has a mailbox is live, and its mailbox holds what it has not received yet. -/
theorem Standing.live_of_mailbox? (hs : Standing h t l) (hm : t.mailbox? l = some m) :
    Live h l ∧ (m.released = true ↔ Retired h l) ∧ delivered h l = taken h l ++ m.queue := by
  cases hs with
  | unmade _ _ _ _ _ hnone => rw [hnone] at hm; cases hm
  | dropped _ _ _ hnone => rw [hnone] at hm; cases hm
  | live m' hlive hreleased hqueue hm' =>
    rw [hm] at hm'
    cases hm'
    exact ⟨hlive, hreleased, hqueue⟩

/-- A step in which no event reaches a lease, it receives none, and it gives nothing up. -/
structure Aside (l : Lease) (tr : Entry ε κ) : Prop where
  delivered : deliveredBy? l tr = none
  taken : takenBy? l tr = none
  retire : tr.move ≠ .retire l
  drop : tr.move ≠ .drop l

/-- A step that has nothing to do with a lease changes nothing of its standing. -/
theorem Standing.aside (hs : Standing h tr.before l) (ha : Aside l tr)
    (hmade : l ∉ tr.events.filterMap Outcome.lease?)
    (hmail : tr.after.mailbox? l = tr.before.mailbox? l) : Standing (h ++ [tr]) tr.after l := by
  have hdelivered : delivered (h ++ [tr]) l = delivered h l := by
    rw [delivered_snoc, ha.delivered]
    exact List.append_nil _
  have htaken : taken (h ++ [tr]) l = taken h l := by
    rw [taken_snoc, ha.taken]
    exact List.append_nil _
  have hretired : Retired (h ++ [tr]) l ↔ Retired h l := by
    rw [retired_snoc, or_iff_left ha.retire]
  have hdropped : Dropped (h ++ [tr]) l ↔ Dropped h l := by
    rw [dropped_snoc, or_iff_left ha.drop]
  have hmade : l ∈ made (h ++ [tr]) ↔ l ∈ made h := by
    rw [made_snoc, List.mem_append, or_iff_left hmade]
  cases hs with
  | unmade hm hr hd hdel htak hnone =>
    exact .unmade (hmade.not.2 hm) (hretired.not.2 hr) (hdropped.not.2 hd)
      (hdelivered.trans hdel) (htaken.trans htak) (hmail.trans hnone)
  | live m hlive hreleased hqueue hm =>
    refine .live m ⟨hmade.2 hlive.1, hdropped.not.2 hlive.2⟩ (hreleased.trans hretired.symm) ?_
      (hmail.trans hm)
    rw [hdelivered, htaken, hqueue]
  | dropped hm hd hprefix hnone =>
    exact .dropped (hmade.2 hm) (hdropped.2 hd) (by rw [hdelivered, htaken]; exact hprefix)
      (hmail.trans hnone)

/-- A lease begins with an empty mailbox. -/
theorem Standing.leased (hs : Standing h tr.before l) (ha : Aside l tr) (hunmade : l ∉ made h)
    (hevents : tr.events = [.leased l]) (hmail : tr.after.mailbox? l = some { lease := l }) :
    Standing (h ++ [tr]) tr.after l := by
  cases hs with
  | live _ hlive => exact absurd hlive.1 hunmade
  | dropped hmade => exact absurd hmade hunmade
  | unmade _ hr hd hdel htak =>
    refine .live _ ⟨?_, ?_⟩ ?_ ?_ hmail
    · rw [made_snoc, hevents]
      exact List.mem_append_right _ (List.mem_singleton.2 rfl)
    · rw [dropped_snoc, or_iff_left ha.drop]
      exact hd
    · rw [retired_snoc, or_iff_left ha.retire]
      exact ⟨(nomatch ·), fun h => absurd h hr⟩
    · rw [delivered_snoc, taken_snoc, ha.delivered, ha.taken, hdel, htak]
      rfl

/-- A step in which a live lease stays alive. -/
theorem Standing.goes_on {m' : Mailbox ε} (hs : Standing h tr.before l)
    (hdrop : tr.move ≠ .drop l) (hm : tr.before.mailbox? l = some m)
    (hm' : tr.after.mailbox? l = some m')
    (hreleased : m'.released = true ↔ m.released = true ∨ tr.move = .retire l)
    (hqueue : m.queue ++ (deliveredBy? l tr).toList = (takenBy? l tr).toList ++ m'.queue) :
    Standing (h ++ [tr]) tr.after l := by
  obtain ⟨⟨hmade, hdropped⟩, hretired, hdelivered⟩ := hs.live_of_mailbox? hm
  refine .live m' ⟨?_, ?_⟩ ?_ ?_ hm'
  · rw [made_snoc]
    exact List.mem_append_left _ hmade
  · rw [dropped_snoc, or_iff_left hdrop]
    exact hdropped
  · rw [retired_snoc, ← hretired, hreleased]
  · rw [delivered_snoc, taken_snoc, hdelivered, List.append_assoc, hqueue, List.append_assoc]

/-- A lease that is dropped loses what it has not received. -/
theorem Standing.ends (hs : Standing h tr.before l) (hmove : tr.move = .drop l)
    (hlive : (tr.before.mailbox? l).isSome = true) (hmail : tr.after.mailbox? l = none) :
    Standing (h ++ [tr]) tr.after l := by
  obtain ⟨m, hm⟩ := Option.isSome_iff_exists.1 hlive
  obtain ⟨⟨hmade, -⟩, -, hdelivered⟩ := hs.live_of_mailbox? hm
  refine .dropped ?_ (dropped_snoc.2 (.inr hmove)) ?_ hmail
  · rw [made_snoc]
    exact List.mem_append_left _ hmade
  · have hnone : deliveredBy? l tr = none ∧ takenBy? l tr = none := by
      simp [deliveredBy?, takenBy?, hmove]
    rw [delivered_snoc, taken_snoc, hnone.1, hnone.2, hdelivered]
    exact ⟨m.queue, by simp⟩

end

/-! ## One step -/

section

variable {h : List (Entry ε κ)} {t t' : Table ε κ} {l : Lease}

theorem Standing.of_leased {tr : Entry ε κ} {key : κ} {l' : Lease} (hs : Standing h tr.before l)
    (hmade : ∀ l ∈ made h, l.serial < tr.before.issued)
    (hleased : Leased tr.before key l' tr.after) (ha : Aside l tr)
    (hevents : tr.events = [.leased l']) : Standing (h ++ [tr]) tr.after l := by
  by_cases hl : l = l'
  · subst hl
    refine hs.leased tr ha (fun hmem => ?_) hevents (by rw [hleased.mailbox, if_pos rfl])
    exact absurd (hmade l hmem) (by rw [hleased.serial]; exact Nat.lt_irrefl _)
  · refine hs.aside tr ha ?_ (by rw [hleased.mailbox, if_neg hl])
    rw [hevents]
    exact fun hmem => hl (List.mem_singleton.1 hmem)

/-- An event is posted to one lease and passes by all others. -/
theorem Standing.of_posted {index : Nat} {event : ε} {accepts : κ → ε → Bool}
    (hs : Standing h t l) (hpost : t.postIf index event accepts = .ok t') :
    Standing (h ++ [⟨t, .post index event accepts, [.posted], t'⟩]) t' l := by
  obtain ⟨holder, m, hh, -, hm, -, rfl⟩ := postIf_eq_ok hpost
  by_cases hl : l = holder.lease
  · subst hl
    refine hs.goes_on ⟨t, _, _, _⟩ nofun hm
      (by rw [mailbox?_modifyMailbox _ _ (by intro; rfl), if_pos rfl, hm]; rfl) ?_ ?_
    · simp
    · simp [deliveredBy?, takenBy?, hh]
  · refine hs.aside ⟨t, _, _, _⟩ ⟨?_, rfl, nofun, nofun⟩ List.not_mem_nil ?_
    · simpa [deliveredBy?, hh] using fun h => hl h.symm
    · rw [mailbox?_modifyMailbox _ _ (by intro; rfl), if_neg hl]

theorem Standing.of_received {l' : Lease} {event : ε} (hs : Standing h t l)
    (htake : t.take? l' = some (event, t')) :
    Standing (h ++ [⟨t, .take l', [.received event], t'⟩]) t' l := by
  obtain ⟨m, rest, hm, hq, rfl⟩ := take?_eq_some htake
  by_cases hl : l = l'
  · subst hl
    refine hs.goes_on ⟨t, _, _, _⟩ nofun hm
      (by rw [mailbox?_modifyMailbox _ _ (by intro; rfl), if_pos rfl, hm]; rfl) ?_ ?_
    · simp
    · simp [deliveredBy?, takenBy?, hq]
  · refine hs.aside ⟨t, _, _, _⟩ ⟨rfl, ?_, nofun, nofun⟩ List.not_mem_nil ?_
    · exact if_neg fun h => hl h.symm
    · rw [mailbox?_modifyMailbox _ _ (by intro; rfl), if_neg hl]

/-- Retiring hands out the oldest event, if there is one, and keeps the others. -/
theorem Standing.of_retired {l' : Lease} (hs : Standing h t l)
    (hlive : (t.mailbox? l').isSome = true) :
    Standing (h ++ [⟨t, .retire l', [.ofEvent? (t.pending l').head?], (t.retire l').2⟩])
      (t.retire l').2 l := by
  by_cases hl : l = l'
  · subst hl
    obtain ⟨m, hm⟩ := Option.isSome_iff_exists.1 hlive
    refine hs.goes_on ⟨t, _, _, _⟩ nofun hm
      (by rw [mailbox?_retire, hm]; rfl) ?_ ?_
    · simp
    · rw [pending_of_mailbox? hm]
      rcases hq : m.queue with _ | ⟨event, rest⟩
      · simp [deliveredBy?, takenBy?, Outcome.ofEvent?, hq]
      · simp [deliveredBy?, takenBy?, Outcome.ofEvent?, hq]
  · have hne : Operation.retire (ε := ε) (κ := κ) l' ≠ .retire l := by
      rintro ⟨⟩
      exact hl rfl
    refine hs.aside ⟨t, _, _, _⟩ ⟨rfl, ?_, hne, nofun⟩ ?_
      (mailbox?_retire_of_ne t hl)
    · cases (t.pending l').head? with
      | none => rfl
      | some event => exact if_neg fun h => hl h.symm
    · cases (t.pending l').head? with
      | none => exact List.not_mem_nil
      | some event => exact List.not_mem_nil

theorem Standing.of_dropped {l' : Lease} (hs : Standing h t l)
    (hlive : (t.mailbox? l').isSome = true) :
    Standing (h ++ [⟨t, .drop l', [.nothing], t.drop l'⟩]) (t.drop l') l := by
  by_cases hl : l = l'
  · subst hl
    exact hs.ends ⟨t, _, _, _⟩ rfl hlive (by rw [mailbox?_drop, if_pos rfl])
  · have hne : Operation.drop (ε := ε) (κ := κ) l' ≠ .drop l := by
      rintro ⟨⟩
      exact hl rfl
    exact hs.aside ⟨t, _, _, _⟩ ⟨rfl, rfl, nofun, hne⟩ List.not_mem_nil
      (by rw [mailbox?_drop, if_neg hl])

theorem Step.sound {operation : Operation ε κ} {outcome : Outcome ε} (ht : t.Sound)
    (hstep : Step t operation t' outcome) : t'.Sound := by
  cases hstep with
  | leased h => exact (ht.leased_of_lease? h).sound
  | leasedAt h => exact (ht.leased_of_leaseAt? h).1.sound
  | posted h => exact ht.postIf h
  | received h => exact ht.take? h
  | retired => exact ht.retire _
  | dropped => exact ht.drop _
  | full | occupied | turnedAway | empty => exact ht

/-- A new lease has the next serial number, and there is no other way to use one up. -/
theorem Step.issued {operation : Operation ε κ} {outcome : Outcome ε} (ht : t.Sound)
    (hstep : Step t operation t' outcome) :
    (outcome.lease? = none ∧ t'.issued = t.issued) ∨
      ∃ l, outcome.lease? = some l ∧ l.serial = t.issued ∧ t'.issued = t.issued + 1 := by
  cases hstep with
  | leased h =>
    have hl := ht.leased_of_lease? h
    exact .inr ⟨_, rfl, hl.serial, hl.issued⟩
  | leasedAt h =>
    have hl := (ht.leased_of_leaseAt? h).1
    exact .inr ⟨_, rfl, hl.serial, hl.issued⟩
  | posted h => exact .inl ⟨rfl, issued_postIf h⟩
  | received h => exact .inl ⟨rfl, issued_take? h⟩
  | retired =>
    refine .inl ⟨?_, issued_retire t _⟩
    cases (t.pending _).head? <;> rfl
  | dropped => exact .inl ⟨rfl, issued_release t _⟩
  | full | occupied | turnedAway | empty => exact .inl ⟨rfl, rfl⟩

/-- Whatever is done with a table, every lease stands as the history says. -/
theorem Standing.step {operation : Operation ε κ} {outcome : Outcome ε} (hs : Standing h t l)
    (ht : t.Sound) (hmade : ∀ l ∈ made h, l.serial < t.issued)
    (hstep : Step t operation t' outcome) :
    Standing (h ++ [⟨t, operation, [outcome], t'⟩]) t' l := by
  cases hstep with
  | leased hl =>
    exact Standing.of_leased hs hmade (ht.leased_of_lease? hl) ⟨rfl, rfl, nofun, nofun⟩ rfl
  | leasedAt hl =>
    exact Standing.of_leased hs hmade (ht.leased_of_leaseAt? hl).1 ⟨rfl, rfl, nofun, nofun⟩ rfl
  | posted hpost => exact hs.of_posted hpost
  | received htake => exact hs.of_received htake
  | retired hlive => exact hs.of_retired hlive
  | dropped hlive => exact hs.of_dropped hlive
  | full | occupied | turnedAway | empty =>
    exact hs.aside ⟨t, _, _, _⟩ ⟨rfl, rfl, nofun, nofun⟩ List.not_mem_nil rfl

end

/-! ## Runs -/

/-- What a history says agrees with the table. -/
structure Attested (h : List (Entry ε κ)) (t : Table ε κ) : Prop where
  sound : t.Sound
  serials : (made h).map (·.serial) = List.range t.issued
  standing : ∀ l, Standing h t l

section

variable {capacity cursor : Nat} {h : List (Entry ε κ)} {t : Table ε κ} {l : Lease}

theorem Attested.serial_lt (hb : Attested h t) : ∀ l ∈ made h, l.serial < t.issued := by
  intro l hl
  rw [← List.mem_range, ← hb.serials]
  exact List.mem_map_of_mem hl

/-- Serial numbers are given out one after the other, so no lease is made twice. -/
theorem attested_of_run (hrun : Run operate? (idle capacity cursor) h t) : Attested h t := by
  induction hrun with
  | rest =>
    exact ⟨sound_idle capacity cursor, rfl, fun l =>
      .unmade List.not_mem_nil (by simp [Retired]) (by simp [Dropped]) rfl rfl rfl⟩
  | step _ hs ih =>
    obtain ⟨outcome, rfl, hstep⟩ := step_of_operate? hs
    refine ⟨hstep.sound ih.sound, ?_, fun l =>
      (ih.standing l).step ih.sound ih.serial_lt hstep⟩
    rw [made_snoc, List.map_append, ih.serials]
    obtain ⟨hnone, hissued⟩ | ⟨l, hl, hserial, hissued⟩ := hstep.issued ih.sound
    · simp [hnone, hissued]
    · simp [hl, hserial, hissued, List.range_succ]

/-- A lease owns its slot exactly until it is retired or dropped. -/
theorem Attested.holder_iff (hb : Attested h t) :
    (∃ key, t.holder? l.index = some ⟨l, key⟩) ↔ Unreleased h l := by
  constructor
  · rintro ⟨key, hh⟩
    obtain ⟨m, hm, hreleased⟩ := hb.sound.holder_mailbox hh
    obtain ⟨hlive, hretired, -⟩ := (hb.standing l).live_of_mailbox? hm
    exact ⟨hlive, fun hr => by rw [hretired.2 hr] at hreleased; cases hreleased⟩
  · rintro ⟨hlive, hretired⟩
    cases hb.standing l with
    | unmade hmade => exact absurd hlive.1 hmade
    | dropped _ hdropped => exact absurd hdropped hlive.2
    | live m _ hreleased _ hm =>
      exact hb.sound.holder_of_unreleased hm (Bool.not_eq_true _ ▸ hreleased.not.2 hretired)

/-- A slot that is taken has one owner and no second one. -/
theorem Attested.isHeld_iff (hb : Attested h t) (i : Nat) :
    t.isHeld i = true ↔ ∃! l, Unreleased h l ∧ l.index = i := by
  rw [Table.isHeld_iff, Option.isSome_iff_exists]
  constructor
  · rintro ⟨⟨l, key⟩, hh⟩
    obtain rfl : l.index = i := hb.sound.holder_index hh
    refine ⟨l, ⟨hb.holder_iff.1 ⟨key, hh⟩, rfl⟩, fun l' ⟨hl', hindex⟩ => ?_⟩
    obtain ⟨key', hh'⟩ := hb.holder_iff.2 hl'
    rw [hindex, hh] at hh'
    cases hh'
    rfl
  · rintro ⟨l, ⟨hl, rfl⟩, -⟩
    obtain ⟨key, hh⟩ := hb.holder_iff.2 hl
    exact ⟨_, hh⟩

/-- Events are received in the order in which they were posted. -/
theorem Attested.received (hb : Attested h t) (l : Lease) : taken h l <+: delivered h l := by
  cases hb.standing l with
  | unmade _ _ _ hdelivered htaken =>
    exact ⟨[], by rw [List.append_nil, hdelivered, htaken]⟩
  | live m _ _ hqueue => exact ⟨m.queue, hqueue.symm⟩
  | dropped _ _ hprefix => exact hprefix

/-- What was posted to a live lease was received, or is still in its mailbox. -/
theorem Attested.queue (hb : Attested h t) (hl : Live h l) :
    delivered h l = taken h l ++ t.pending l ∧ (t.pending l).length ≤ mailboxDepth := by
  cases hb.standing l with
  | unmade hmade => exact absurd hl.1 hmade
  | dropped _ hdropped => exact absurd hdropped hl.2
  | live m _ _ hqueue hm =>
    rw [pending_of_mailbox? hm]
    exact ⟨hqueue, hb.sound.queue_le hm⟩

theorem Attested.isReleased (hb : Attested h t) (hl : Retired h l) : t.isReleased l = true := by
  cases hb.standing l with
  | unmade _ hretired => exact absurd hl hretired
  | live m _ hreleased _ hm => rw [isReleased_of_mailbox? hm, hreleased.2 hl]
  | dropped _ _ _ hnone => simp [Table.isReleased, hnone]

theorem Attested.of_deliveredBy? {tr : Entry ε κ} {event : ε} (hb : Attested h tr.before)
    (hd : deliveredBy? l tr = some event) : Unreleased h l := by
  unfold deliveredBy? at hd
  split at hd
  · obtain ⟨hl, -⟩ := Option.ite_none_right_eq_some.1 hd
    obtain ⟨⟨l, key⟩, hh, rfl⟩ := Option.map_eq_some_iff.1 hl
    refine hb.holder_iff.1 ⟨key, ?_⟩
    rw [hb.sound.holder_index hh, hh]
  · cases hd

end

/-! ## Who gets what -/

section

variable {t t' : Table ε κ} {l : Lease} {i : Nat} {event : ε} {accepts : κ → ε → Bool}

/-- An event is posted exactly if the slot has an owner who wants it and has room for it. -/
theorem Sound.postIf_isOk_iff (ht : t.Sound) : (∃ t', t.postIf i event accepts = .ok t') ↔
    ∃ l key, t.holder? i = some ⟨l, key⟩ ∧ accepts key event = true ∧
      (t.pending l).length < mailboxDepth := by
  constructor
  · rintro ⟨t', h⟩
    obtain ⟨⟨l, key⟩, m, hh, hacc, hm, hroom, -⟩ := postIf_eq_ok h
    exact ⟨l, key, hh, hacc, by rw [pending_of_mailbox? hm]; exact hroom⟩
  · rintro ⟨l, key, hh, hacc, hroom⟩
    obtain ⟨m, hm, -⟩ := ht.holder_mailbox hh
    rw [pending_of_mailbox? hm] at hroom
    exact ⟨_, postIf_of_room hh hacc hm hroom⟩

theorem event_of_postIf_eq_error {undelivered : Undelivered ε}
    (h : t.postIf i event accepts = .error undelivered) : undelivered.event = event := by
  unfold postIf at h
  split at h
  · split at h
    · split at h
      · split at h
        · cases h
        · cases h; rfl
      · cases h; rfl
    · cases h; rfl
  · cases h; rfl

theorem slots_release_of_isReleased (h : t.isReleased l = true) :
    (t.release l).slots = t.slots := by
  rw [release, if_pos h]

theorem slots_retire_of_isReleased (h : t.isReleased l = true) :
    (t.retire l).2.slots = t.slots := by
  unfold retire
  split
  · rename_i event t' htake
    obtain ⟨-, -, -, -, rfl⟩ := take?_eq_some htake
    exact slots_release_of_isReleased ((isReleased_take? htake l).trans h)
  · exact slots_release_of_isReleased h

end

/-- Who has a slot, and what becomes of the events that are posted to it. -/
structure Owned (h : List (Entry ε κ)) (t : Table ε κ) : Prop where
  /-- No lease is made twice. -/
  distinct : (made h).Nodup
  /-- A slot belongs to the lease with its index that is live and was not retired. -/
  owner : ∀ l, (∃ key, t.holder? l.index = some ⟨l, key⟩) ↔ Unreleased h l
  /-- A slot is held exactly if there is one such lease. -/
  held : ∀ i, t.isHeld i = true ↔ ∃! l, Unreleased h l ∧ l.index = i
  /-- A lease receives what reached it, each event once and in order, and nothing else. -/
  received : ∀ l, taken h l <+: delivered h l
  /-- While a lease is live the rest is pending, a few events at most. -/
  queued : ∀ l, Live h l →
    delivered h l = taken h l ++ t.pending l ∧ (t.pending l).length ≤ mailboxDepth
  /-- Whoever asks for an event, or retires, receives the oldest that is pending. -/
  served : ∀ {tr l}, tr ∈ h → tr.move = .take l ∨ tr.move = .retire l →
    tr.events = [.ofEvent? (tr.before.pending l).head?]
  /-- An event is posted exactly if the slot has an owner who wants it and has room for it. -/
  posted : ∀ {tr i event accepts}, tr ∈ h → tr.move = .post i event accepts →
    (tr.events = [.posted] ↔ ∃ l key, tr.before.holder? i = some ⟨l, key⟩ ∧
      accepts key event = true ∧ (tr.before.pending l).length < mailboxDepth)
  /-- An event that is posted reaches the owner of the slot and no other lease. -/
  reached : ∀ {front tr back i event accepts}, h = front ++ tr :: back →
    tr.move = .post i event accepts → tr.events = [.posted] → ∃ l, Unreleased front l ∧
      l.index = i ∧ ∀ l', deliveredBy? l' tr = if l' = l then some event else none
  /-- An event that is not posted is handed back, and nothing changes. -/
  turnedAway : ∀ {tr i event accepts}, tr ∈ h → tr.move = .post i event accepts →
    tr.events ≠ [.posted] → tr.after = tr.before ∧
      ∃ undelivered, tr.events = [.turnedAway undelivered] ∧ undelivered.event = event
  /-- Nothing reaches a lease after it was retired or dropped. -/
  closed : ∀ {front tr back l}, h = front ++ tr :: back →
    tr.move = .retire l ∨ tr.move = .drop l → delivered back l = []
  /-- A lease that was retired gives no slot back when it is retired again or dropped. -/
  spared : ∀ {front tr back l}, h = front ++ tr :: back → Retired front l →
    tr.move = .retire l ∨ tr.move = .drop l → tr.after.slots = tr.before.slots

/-- Whatever is done with a table, slots and events go to those who have a right to them. -/
theorem owned_of_run {capacity cursor : Nat} {h : List (Entry ε κ)} {t : Table ε κ}
    (hrun : Run operate? (idle capacity cursor) h t) : Owned h t where
  distinct := by
    have hnodup : ((made h).map (·.serial)).Nodup := by
      rw [(attested_of_run hrun).serials]
      exact List.nodup_range
    exact List.Nodup.of_map _ hnodup
  owner l := (attested_of_run hrun).holder_iff
  held := (attested_of_run hrun).isHeld_iff
  received := (attested_of_run hrun).received
  queued l := (attested_of_run hrun).queue
  served := by
    rintro ⟨before, move, events, after⟩ l htr hmove
    obtain ⟨outcome, rfl, hstep⟩ := step_of_mem hrun htr
    dsimp only at hstep hmove ⊢
    rcases hmove with rfl | rfl
    · cases hstep with
      | received htake =>
        rw [pending_take? htake]
        rfl
      | empty htake =>
        rw [take?_eq_none_iff.1 htake]
        rfl
    · cases hstep
      rfl
  posted := by
    rintro ⟨before, move, events, after⟩ i event accepts htr rfl
    obtain ⟨front, back, rfl⟩ := List.append_of_mem htr
    have hsound : before.Sound := (attested_of_run hrun.split.1).sound
    obtain ⟨outcome, rfl, hstep⟩ := step_of_mem hrun htr
    refine Iff.trans ?_ hsound.postIf_isOk_iff
    cases hstep with
    | posted hpost => exact ⟨fun _ => ⟨_, hpost⟩, fun _ => rfl⟩
    | turnedAway hpost =>
      refine ⟨(nomatch ·), fun ⟨t', h⟩ => ?_⟩
      rw [hpost] at h
      cases h
  reached := by
    rintro front ⟨before, move, events, after⟩ back i event accepts rfl rfl rfl
    have hb : Attested front before := attested_of_run hrun.split.1
    obtain ⟨outcome, houtcome, hstep⟩ := step_of_operate? hrun.split.2.1
    cases houtcome
    cases hstep with
    | posted hpost =>
      obtain ⟨⟨l, key⟩, m, hh, -⟩ := postIf_eq_ok hpost
      obtain rfl : l.index = i := hb.sound.holder_index hh
      refine ⟨l, hb.holder_iff.1 ⟨key, hh⟩, rfl, fun l' => ?_⟩
      simp [deliveredBy?, hh, eq_comm]
  turnedAway := by
    rintro ⟨before, move, events, after⟩ i event accepts htr rfl hevents
    obtain ⟨outcome, rfl, hstep⟩ := step_of_mem hrun htr
    cases hstep with
    | posted => exact absurd rfl hevents
    | turnedAway hpost => exact ⟨rfl, _, rfl, event_of_postIf_eq_error hpost⟩
  closed := by
    rintro front tr back l rfl hmove
    refine List.filterMap_eq_nil_iff.2 fun tr' htr' => ?_
    by_contra hne
    obtain ⟨event, hevent⟩ := Option.ne_none_iff_exists'.1 hne
    obtain ⟨middle, back', rfl⟩ := List.append_of_mem htr'
    rw [← List.cons_append, ← List.append_assoc] at hrun
    -- the lease would be unreleased when the event comes, although it was given up before
    have hlive := (attested_of_run hrun.split.1).of_deliveredBy? hevent
    rcases hmove with hretire | hdrop
    · exact hlive.2 ⟨tr, by simp, hretire⟩
    · exact hlive.1.2 ⟨tr, by simp, hdrop⟩
  spared := by
    rintro front ⟨before, move, events, after⟩ back l rfl hretired hmove
    have hreleased : before.isReleased l = true := (attested_of_run hrun.split.1).isReleased hretired
    obtain ⟨outcome, rfl, hstep⟩ := step_of_operate? hrun.split.2.1
    dsimp only at hstep hmove ⊢
    rcases hmove with rfl | rfl
    · cases hstep
      exact slots_retire_of_isReleased hreleased
    · cases hstep
      exact slots_release_of_isReleased hreleased

/-- A key wants the even numbers or the odd ones. -/
def wants (even : Bool) (n : Nat) : Bool := even == (n % 2 == 0)

/-- Slot 0 has a new owner while the one before, who has retired, still receives events. -/
def handedOver : List (Operation Nat Bool) :=
  [.lease true, .post 0 3 wants, .post 0 4 wants, .post 0 6 wants, .retire ⟨0, 0⟩, .post 0 8 wants,
    .leaseAt 0 false, .retire ⟨0, 0⟩, .drop ⟨0, 0⟩, .post 0 5 wants, .take ⟨1, 0⟩]

theorem owned_handedOver : ∃ h t,
    replay operate? (idle 2 0) handedOver = some (h, t) ∧ Owned h t ∧
      h.flatMap (·.events) = [.leased ⟨0, 0⟩, .turnedAway (.refused 3), .posted, .posted,
        .received 4, .turnedAway (.noOwner 8), .leased ⟨1, 0⟩, .received 6, .nothing, .posted,
        .received 5] ∧
      delivered h ⟨0, 0⟩ = [4, 6] ∧ delivered h ⟨1, 0⟩ = [5] ∧ t.isHeld 0 = true := by
  have hall : (replay operate? (idle 2 0) handedOver).any (fun r =>
      r.1.flatMap (·.events) == [.leased ⟨0, 0⟩, .turnedAway (.refused 3), .posted, .posted,
        .received 4, .turnedAway (.noOwner 8), .leased ⟨1, 0⟩, .received 6, .nothing, .posted,
        .received 5] &&
      delivered r.1 ⟨0, 0⟩ == [4, 6] && delivered r.1 ⟨1, 0⟩ == [5] && r.2.isHeld 0) = true := by
    decide +kernel
  obtain ⟨h, t, hr, hrun, hc⟩ := exists_run_of_replay hall
  simp only [Bool.and_eq_true, beq_iff_eq] at hc
  exact ⟨h, t, hr, owned_of_run hrun, hc.1.1.1, hc.1.1.2, hc.1.2, hc.2⟩

end Table

end ShortMessage.Transaction
