import Mathlib.Data.List.Nodup
import Mathlib.Data.List.Perm.Basic
import ShortMessage.Proofs.Transaction.Run
import ShortMessage.Proofs.Transaction.Tasks

/-!
# How many slots are held

Two ways to keep the books of a table.

* **By tasks.**  The slots that are held are those of the leases that tasks have and did not release
  (`tenants`), one each: `Accounts.idleCount_add_length_tenants`.
* **By steps.**  `takings` counts the steps in which a lease gets its slot, and `givings` those in
  which it gives it back.  Over a run every lease gets its slot once at most, since its serial
  number is new, and gives it back once, unless it still has it: `turnover_of_run`.
-/

namespace ShortMessage.Transaction

namespace Table

variable {ε κ : Type}

/-- Does a lease have its slot? -/
def owns (t : Table ε κ) (lease : Lease) : Bool :=
  (t.holder? lease.index).any fun holder => holder.lease = lease

/-- The indices of the slots that are held. -/
def heldIndices (t : Table ε κ) : List Nat := (List.range t.slots.length).filter t.isHeld

/-- The tasks with a number below `n` whose lease has its slot. -/
def tenants (t : Table ε κ) (leaseOf : TaskId → Option Lease) (n : Nat) : List TaskId :=
  (List.range n).filter fun id => (leaseOf id).any t.owns

variable {t t' : Table ε κ} {l : Lease} {i : Nat}

theorem owns_iff : t.owns l = true ↔ ∃ key, t.holder? l.index = some ⟨l, key⟩ := by
  unfold owns
  simp only [Option.any_eq_true, decide_eq_true_eq]
  constructor
  · rintro ⟨holder, hh, rfl⟩
    exact ⟨holder.key, hh⟩
  · rintro ⟨key, hh⟩
    exact ⟨_, hh, rfl⟩

/-! ## Held slots and idle slots -/

theorem slots_eq_map : t.slots = (List.range t.slots.length).map t.holder? := by
  refine List.ext_getElem (by simp) fun i hi hi' => ?_
  simp [holder?, hi]

theorem isHeld_eq : t.isHeld i = (t.holder? i).isSome := by
  rw [Bool.eq_iff_iff]
  exact isHeld_iff

theorem idleCount_add_length_heldIndices :
    t.idleCount + t.heldIndices.length = t.slots.length := by
  have hidle : t.idleCount = (List.range t.slots.length).countP fun i => !t.isHeld i := by
    unfold idleCount
    conv_lhs => rw [slots_eq_map]
    rw [List.countP_map]
    refine List.countP_congr fun i _ => ?_
    simp [isHeld_eq]
  have hsplit := List.length_eq_countP_add_countP t.isHeld (l := List.range t.slots.length)
  rw [List.length_range] at hsplit
  calc t.idleCount + t.heldIndices.length
      = (List.range t.slots.length).countP (fun i => !t.isHeld i) +
          (List.range t.slots.length).countP t.isHeld := by
        rw [hidle, heldIndices, ← List.countP_eq_length_filter]
    _ = t.slots.length := by
        rw [Nat.add_comm]
        simpa using hsplit.symm

/-- A lease is refused exactly when no slot is idle. -/
theorem lease?_eq_none_iff_idleCount {key : κ} : t.lease? key = none ↔ t.idleCount = 0 := by
  rw [lease?_eq_none_iff]
  unfold idleCount
  rw [List.countP_eq_zero]
  constructor
  · intro hall o ho
    obtain ⟨i, hi, rfl⟩ := List.getElem_of_mem ho
    have hsome := hall i hi
    simp only [holder?, List.getElem?_eq_getElem hi, Option.join_some] at hsome
    simpa using Option.isSome_iff_ne_none.1 hsome
  · intro hall i hi
    have hnone := hall _ (List.getElem_mem hi)
    simp only [holder?, List.getElem?_eq_getElem hi, Option.join_some]
    simpa [Option.isSome_iff_ne_none] using hnone

end Table

/-! ## The books by tasks -/

section

variable {ε κ : Type} {t : Table ε κ} {f : TaskId → Option Lease} {n : Nat} {i j id : TaskId}
  {l l' : Lease}

theorem mem_tenants (hn : ∀ {id}, n ≤ id → f id = none) :
    id ∈ t.tenants f n ↔ ∃ l, f id = some l ∧ t.owns l = true := by
  unfold Table.tenants
  rw [List.mem_filter, List.mem_range, Option.any_eq_true]
  refine ⟨fun h => h.2, fun h => ⟨Nat.lt_of_not_le fun hle => ?_, h⟩⟩
  obtain ⟨l, hl, -⟩ := h
  rw [hn hle] at hl
  cases hl

namespace Accounts

theorem owns_iff (h : Accounts t f) (hl : f id = some l) :
    t.owns l = true ↔ t.isReleased l = false := by
  obtain ⟨m, hm⟩ := h.mailbox hl
  rw [Table.isReleased_of_mailbox? hm, Table.owns_iff]
  constructor
  · rintro ⟨key, hh⟩
    obtain ⟨m', hm', hr⟩ := h.sound.holder_mailbox hh
    rw [hm] at hm'
    cases hm'
    exact hr
  · exact h.sound.holder_of_unreleased hm

/-- A lease that has its slot is that of a task. -/
theorem exists_of_owns (h : Accounts t f) (ho : t.owns l = true) : ∃ id, f id = some l := by
  obtain ⟨key, hh⟩ := Table.owns_iff.1 ho
  obtain ⟨m, hm, -⟩ := h.sound.holder_mailbox hh
  exact h.owner hm

/-- Tasks that have their slots have different ones. -/
theorem eq_of_index (h : Accounts t f) (hi : f i = some l) (hj : f j = some l')
    (hl : t.owns l = true) (hl' : t.owns l' = true) (hindex : l.index = l'.index) : i = j :=
  h.eq_of_index_eq hi hj ((h.owns_iff hi).1 hl) ((h.owns_iff hj).1 hl') hindex

/-- The slots that are held are those of the tasks. -/
theorem perm_heldIndices (h : Accounts t f) (hn : ∀ {id}, n ≤ id → f id = none) :
    ((t.tenants f n).map fun id => ((f id).map Lease.index).getD 0).Perm t.heldIndices := by
  have hnodup : (t.tenants f n).Nodup := List.nodup_range.filter _
  refine (List.perm_ext_iff_of_nodup (hnodup.map_on fun i hi j hj hij => ?_)
    (List.nodup_range.filter _)).2 fun k => ?_
  · obtain ⟨l, hl, ho⟩ := (mem_tenants hn).1 hi
    obtain ⟨l', hl', ho'⟩ := (mem_tenants hn).1 hj
    rw [hl, hl'] at hij
    exact h.eq_of_index hl hl' ho ho' hij
  · rw [List.mem_map, List.mem_filter, List.mem_range, Table.isHeld_iff, Option.isSome_iff_exists]
    constructor
    · rintro ⟨id, hid, rfl⟩
      obtain ⟨l, hl, ho⟩ := (mem_tenants hn).1 hid
      obtain ⟨key, hh⟩ := Table.owns_iff.1 ho
      obtain ⟨m, hm⟩ := h.mailbox hl
      rw [hl]
      exact ⟨h.sound.index_lt hm, _, hh⟩
    · rintro ⟨-, holder, hh⟩
      have hindex := h.sound.holder_index hh
      have ho : t.owns holder.lease = true := Table.owns_iff.2 ⟨holder.key, by rw [hindex]; exact hh⟩
      obtain ⟨id, hid⟩ := h.exists_of_owns ho
      exact ⟨id, (mem_tenants hn).2 ⟨_, hid, ho⟩, by rw [hid]; exact hindex⟩

/-- Every slot is idle or that of one task. -/
theorem idleCount_add_length_tenants (h : Accounts t f) (hn : ∀ {id}, n ≤ id → f id = none) :
    t.idleCount + (t.tenants f n).length = t.slots.length := by
  have hlen := (h.perm_heldIndices hn).length_eq
  rw [List.length_map] at hlen
  rw [hlen, Table.idleCount_add_length_heldIndices]

end Accounts

end

/-! ## The books by steps -/

section

variable {ε κ σ μ α : Type} {view : σ → Table ε κ} {step? : σ → μ → Option (σ × List α)} {s u : σ}
  {h : List (Transition σ μ α)} {t t' : Table ε κ} {l : Lease}

/-- How often a lease got its slot. -/
def takings (view : σ → Table ε κ) (h : List (Transition σ μ α)) (l : Lease) : Nat :=
  h.countP fun tr => !(view tr.before).owns l && (view tr.after).owns l

/-- How often a lease gave its slot back. -/
def givings (view : σ → Table ε κ) (h : List (Transition σ μ α)) (l : Lease) : Nat :=
  h.countP fun tr => (view tr.before).owns l && !(view tr.after).owns l

/-- Every lease gets its slot once at most, and has given it back unless it has it now. -/
structure Turnover (view : σ → Table ε κ) (h : List (Transition σ μ α)) (s : σ) : Prop where
  once : ∀ l, takings view h l ≤ 1
  /-- A lease that is not dropped yet got its slot. -/
  taken : ∀ {l m}, (view s).mailbox? l = some m → takings view h l = 1
  balanced : ∀ l, takings view h l = givings view h l + if (view s).owns l then 1 else 0

/-- What a step can do to a table: a task does something with its lease, or an event is posted. -/
inductive Table.Advance (t t' : Table ε κ) : Prop where
  | change {l l'} : Change t l l' t' → t.Advance t'
  | post {i event accepts} : t.postIf i event accepts = .ok t' → t.Advance t'

theorem Table.Advance.issued_le (ha : t.Advance t') : t.issued ≤ t'.issued := by
  cases ha with
  | change hc => exact hc.issued_le
  | post hp => exact Nat.le_of_eq (Table.issued_postIf hp).symm

/-- Only a new lease gets a slot. -/
theorem Table.Advance.serial_of_owns (ha : t.Advance t') (ht : t.Sound) (hno : t.owns l = false)
    (hyes : t'.owns l = true) : l.serial = t.issued ∧ t'.issued = t.issued + 1 := by
  obtain ⟨key, hkey⟩ := Table.owns_iff.1 hyes
  have hnot : ∀ key, t.holder? l.index ≠ some ⟨l, key⟩ := by
    intro key hh
    rw [Table.owns_iff.2 ⟨key, hh⟩] at hno
    cases hno
  cases ha with
  | post hp => exact absurd ((Table.holder?_postIf hp _).symm.trans hkey) (hnot key)
  | change hc =>
    cases hc with
    | keep => exact absurd hkey (hnot key)
    | take htake => exact absurd ((Table.holder?_take? htake _).symm.trans hkey) (hnot key)
    | lease hl =>
      rw [hl.holder] at hkey
      split at hkey
      · cases hkey
        exact ⟨hl.serial, hl.issued⟩
      · exact absurd hkey (hnot key)
    | retire =>
      rw [ht.holder?_retire] at hkey
      exact absurd (Option.filter_eq_some_iff.1 hkey).1 (hnot key)
    | drop =>
      rw [ht.holder?_drop] at hkey
      exact absurd (Option.filter_eq_some_iff.1 hkey).1 (hnot key)

/-- A lease that is not dropped yet is an old one, or gets its slot. -/
theorem Table.Advance.old_or_taken (ha : t.Advance t') (hm : (t'.mailbox? l).isSome = true) :
    (t.mailbox? l).isSome = true ∨ t.owns l = false ∧ t'.owns l = true := by
  cases ha with
  | post hp => exact .inl ((Table.isSome_mailbox?_postIf hp l).symm.trans hm)
  | change hc =>
    cases hc with
    | keep => exact .inl hm
    | take htake => exact .inl ((Table.isSome_mailbox?_take? htake l).symm.trans hm)
    | retire => exact .inl ((Table.isSome_mailbox?_retire t _ l).symm.trans hm)
    | drop =>
      rw [Table.mailbox?_drop] at hm
      split at hm
      · cases hm
      · exact .inl hm
    | lease hl =>
      rw [hl.mailbox] at hm
      split at hm
      · rename_i heq
        subst heq
        refine .inr ⟨Bool.eq_false_iff.2 fun ho => ?_, ?_⟩
        · obtain ⟨key, hkey⟩ := Table.owns_iff.1 ho
          rw [hl.idle] at hkey
          cases hkey
        · exact Table.owns_iff.2 ⟨_, (hl.holder _).trans (if_pos rfl)⟩
      · exact .inl hm

theorem takings_append (h k : List (Transition σ μ α)) (l : Lease) :
    takings view (h ++ k) l = takings view h l + takings view k l := List.countP_append

theorem takings_snoc (tr : Transition σ μ α) : takings view (h ++ [tr]) l = takings view h l +
    if !(view tr.before).owns l && (view tr.after).owns l then 1 else 0 := by
  simp [takings, List.countP_append, List.countP_cons]

theorem givings_snoc (tr : Transition σ μ α) : givings view (h ++ [tr]) l = givings view h l +
    if (view tr.before).owns l && !(view tr.after).owns l then 1 else 0 := by
  simp [givings, List.countP_append, List.countP_cons]

/-- What the steps of a run tell of one lease. -/
structure Tally (view : σ → Table ε κ) (h : List (Transition σ μ α)) (s : σ) (l : Lease) : Prop where
  once : takings view h l ≤ 1
  fresh : (view s).issued ≤ l.serial → takings view h l = 0
  taken : ((view s).mailbox? l).isSome = true → 1 ≤ takings view h l
  balanced : takings view h l = givings view h l + if (view s).owns l then 1 else 0

theorem Tally.step {move : μ} {events : List α} (hc : Tally view h s l) (hsound : (view s).Sound)
    (ha : (view s).Advance (view u)) : Tally view (h ++ [⟨s, move, events, u⟩]) u l := by
  have hissued : (view s).issued ≤ (view u).issued := ha.issued_le
  have hmailbox := ha.old_or_taken (l := l)
  have hbalanced := hc.balanced
  cases hbefore : (view s).owns l <;> cases hafter : (view u).owns l
  case false.true =>
    -- the lease is the one that is made in this step
    obtain ⟨hserial, hnext⟩ := ha.serial_of_owns hsound hbefore hafter
    have hnone := hc.fresh (Nat.le_of_eq hserial.symm)
    have hone : takings view (h ++ [⟨s, move, events, u⟩]) l = 1 := by
      rw [takings_snoc, hnone]
      simp [hbefore, hafter]
    refine ⟨Nat.le_of_eq hone, fun hs => by omega, fun _ => Nat.le_of_eq hone.symm, ?_⟩
    rw [hone, givings_snoc]
    simp [hbefore, hafter, hnone] at hbalanced ⊢
    exact hbalanced.symm
  all_goals
    have hsame : takings view (h ++ [⟨s, move, events, u⟩]) l = takings view h l := by
      rw [takings_snoc]
      simp [hbefore, hafter]
    have hold : ((view u).mailbox? l).isSome = true → ((view s).mailbox? l).isSome = true := by
      intro hm
      obtain hold | ⟨hno, hyes⟩ := hmailbox hm
      · exact hold
      · simp [hbefore, hafter] at hno hyes
    refine ⟨hsame ▸ hc.once, fun hs => hsame ▸ hc.fresh (Nat.le_trans hissued hs),
      fun hm => hsame ▸ hc.taken (hold hm), ?_⟩
    rw [hsame, givings_snoc, hbalanced]
    simp [hbefore, hafter]

/-- The turnover of a run whose steps do nothing else to the table. -/
theorem turnover_of_run (hrun : Run step? s h u) (hidle : Accounts (view s) fun _ => none)
    (hsound : ∀ {k t}, Run step? s k t → (view t).Sound)
    (hstep : ∀ {k t move events t'}, Run step? s k t → step? t move = some (t', events) →
      (view t).Advance (view t')) : Turnover view h u := by
  have htally : ∀ l, Tally view h u l := by
    intro l
    induction hrun with
    | rest =>
      have hno : (view s).owns l = false := by
        rw [Bool.eq_false_iff]
        intro ho
        obtain ⟨_, ⟨⟩⟩ := hidle.exists_of_owns ho
      refine ⟨Nat.zero_le _, fun _ => rfl, fun hm => ?_, by simp [takings, givings, hno]⟩
      obtain ⟨m, hm⟩ := Option.isSome_iff_exists.1 hm
      obtain ⟨_, ⟨⟩⟩ := hidle.owner hm
    | step hfront hs ih => exact ih.step (hsound hfront) (hstep hfront hs)
  exact ⟨fun l => (htally l).once, fun hm => Nat.le_antisymm (htally _).once
    ((htally _).taken (by rw [hm]; rfl)), fun l => (htally l).balanced⟩

/-- A lease that was there and has no slot any more got one once and gave it back once. -/
theorem Turnover.of_gone {k : List (Transition σ μ α)} {m : Mailbox ε} (hs : Turnover view h s)
    (hu : Turnover view (h ++ k) u) (hm : (view s).mailbox? l = some m)
    (hno : (view u).owns l = false) :
    takings view (h ++ k) l = 1 ∧ givings view (h ++ k) l = 1 := by
  have hone : takings view (h ++ k) l = 1 := by
    refine Nat.le_antisymm (hu.once l) ?_
    rw [takings_append, hs.taken hm]
    exact Nat.le_add_right _ _
  have hbalanced := hu.balanced l
  rw [hone, hno] at hbalanced
  exact ⟨hone, by simpa using hbalanced.symm⟩

/-! ## Both books -/

variable {leaseOf : σ → TaskId → Option Lease} {started : σ → Nat} {capacity : Nat}

/-- The leases of a table of this size are those of the tasks that were started. -/
structure Kept (view : σ → Table ε κ) (leaseOf : σ → TaskId → Option Lease) (started : σ → Nat)
    (capacity : Nat) (s : σ) : Prop where
  accounts : Accounts (view s) (leaseOf s)
  length : (view s).slots.length = capacity
  fresh : ∀ {id}, started s ≤ id → leaseOf s id = none

/-- What a history that leads to `s` says of the leases. -/
structure Ledger (view : σ → Table ε κ) (leaseOf : σ → TaskId → Option Lease)
    (h : List (Transition σ μ α)) (s : σ) : Prop where
  /-- Tasks that have slots have different ones. -/
  distinct : ∀ {i j l l'}, leaseOf s i = some l → leaseOf s j = some l' →
    (view s).owns l = true → (view s).owns l' = true → l.index = l'.index → i = j
  /-- No lease gets a slot, or gives it back, more than once. -/
  turnover : Turnover view h s
  /-- A lease that a task had at some time and none has any more got its slot and gave it back. -/
  restored : ∀ {tr id l}, tr ∈ h → leaseOf tr.before id = some l → (∀ j, leaseOf s j ≠ some l) →
    takings view h l = 1 ∧ givings view h l = 1

/-- Every slot is idle or that of one task. -/
theorem Kept.idleCount_add_length_tenants (hk : Kept view leaseOf started capacity s) :
    (view s).idleCount + ((view s).tenants (leaseOf s) (started s)).length = capacity := by
  rw [← hk.length]
  exact hk.accounts.idleCount_add_length_tenants hk.fresh

theorem Kept.mem_tenants (hk : Kept view leaseOf started capacity s) {id : TaskId} :
    id ∈ (view s).tenants (leaseOf s) (started s) ↔
      ∃ l, leaseOf s id = some l ∧ (view s).isReleased l = false := by
  rw [Transaction.mem_tenants hk.fresh]
  exact exists_congr fun l => and_congr_right fun hl => hk.accounts.owns_iff hl

theorem ledger_of_run (hrun : Run step? s h u) (hidle : Accounts (view s) fun _ => none)
    (hkept : ∀ {k t}, Run step? s k t → Kept view leaseOf started capacity t)
    (hstep : ∀ {k t move events t'}, Run step? s k t → step? t move = some (t', events) →
      (view t).Advance (view t')) : Ledger view leaseOf h u := by
  have hturnover {k t} (hrun : Run step? s k t) : Turnover view k t :=
    turnover_of_run hrun hidle (fun hfront => (hkept hfront).accounts.sound) hstep
  have haccounts := (hkept hrun).accounts
  refine ⟨haccounts.eq_of_index, hturnover hrun, fun {tr id l} htr hl hgone => ?_⟩
  obtain ⟨front, back, rfl⟩ := List.append_of_mem htr
  obtain ⟨hfront, -, -⟩ := hrun.split
  obtain ⟨m, hm⟩ := (hkept hfront).accounts.mailbox hl
  refine (hturnover hfront).of_gone (hturnover hrun) hm ?_
  rw [Bool.eq_false_iff]
  intro ho
  obtain ⟨j, hj⟩ := haccounts.exists_of_owns ho
  exact hgone j hj

end

end ShortMessage.Transaction
