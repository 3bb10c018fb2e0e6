import ShortMessage.Proofs.Transaction.Run
import ShortMessage.Proofs.Transaction.Release

/-!
# All that can be done with a table

`Operation` lists what can be done with a table, and `Outcome` what comes of it.  `operate?` carries
an operation out.  Everybody may ask for slots and post events; to take events, to retire and to
drop one needs a lease that was not dropped before.  So the runs of `operate?` are all the ways in
which several transactions can use one table, an operation of one between any two of another.

`step_of_operate?` says what an operation can do and when; nothing else about `operate?` is needed
to follow a run.
-/

namespace ShortMessage.Transaction.Table

/-- What can be done with a table. -/
inductive Operation (ε κ : Type) where
  /-- Any idle slot is asked for. -/
  | lease (key : κ)
  /-- The slot with this index is asked for. -/
  | leaseAt (index : Nat) (key : κ)
  /-- An event is posted to the owner of a slot, whose key is asked first; `Table.post` is the case
  in which all keys accept. -/
  | post (index : Nat) (event : ε) (accepts : κ → ε → Bool)
  | take (lease : Lease)
  | retire (lease : Lease)
  | drop (lease : Lease)

/-- What comes of an operation. -/
inductive Outcome (ε : Type) where
  | leased (lease : Lease)
  /-- There was no slot to be had. -/
  | refused
  | posted
  | turnedAway (undelivered : Undelivered ε)
  | received (event : ε)
  | nothing
  deriving DecidableEq, Repr

/-- An event that is received, or nothing. -/
def Outcome.ofEvent? {ε : Type} : Option ε → Outcome ε
  | some event => .received event
  | none => .nothing

/-- The lease that one needs for an operation. -/
def Operation.needed? {ε κ : Type} : Operation ε κ → Option Lease
  | .take l | .retire l | .drop l => some l
  | .lease _ | .leaseAt _ _ | .post _ _ _ => none

variable {ε κ : Type}

/-- Does an operation on a table for whoever may. -/
def perform (t : Table ε κ) : Operation ε κ → Table ε κ × Outcome ε
  | .lease key =>
    match t.lease? key with
    | some (l, t') => (t', .leased l)
    | none => (t, .refused)
  | .leaseAt index key =>
    match t.leaseAt? index key with
    | some (l, t') => (t', .leased l)
    | none => (t, .refused)
  | .post index event accepts =>
    match t.postIf index event accepts with
    | .ok t' => (t', .posted)
    | .error undelivered => (t, .turnedAway undelivered)
  | .take l =>
    match t.take? l with
    | some (event, t') => (t', .received event)
    | none => (t, .nothing)
  | .retire l => ((t.retire l).2, .ofEvent? (t.retire l).1)
  | .drop l => (t.drop l, .nothing)

/-- Carries out an operation; none can be for a lease that was never made or was dropped. -/
def operate? (t : Table ε κ) (operation : Operation ε κ) :
    Option (Table ε κ × List (Outcome ε)) :=
  if operation.needed?.all fun l => (t.mailbox? l).isSome then
    some ((t.perform operation).1, [(t.perform operation).2])
  else none

/-- An operation that was carried out. -/
abbrev Entry (ε κ : Type) := Transition (Table ε κ) (Operation ε κ) (Outcome ε)

/-! ## What an operation does -/

/-- What an operation can do to a table, and when. -/
inductive Step (t : Table ε κ) : Operation ε κ → Table ε κ → Outcome ε → Prop where
  | leased {key l t'} : t.lease? key = some (l, t') → Step t (.lease key) t' (.leased l)
  | full {key} : t.lease? key = none → Step t (.lease key) t .refused
  | leasedAt {index key l t'} :
      t.leaseAt? index key = some (l, t') → Step t (.leaseAt index key) t' (.leased l)
  | occupied {index key} : t.leaseAt? index key = none → Step t (.leaseAt index key) t .refused
  | posted {index event accepts t'} :
      t.postIf index event accepts = .ok t' → Step t (.post index event accepts) t' .posted
  | turnedAway {index event accepts undelivered} :
      t.postIf index event accepts = .error undelivered →
      Step t (.post index event accepts) t (.turnedAway undelivered)
  | received {l event t'} : t.take? l = some (event, t') → Step t (.take l) t' (.received event)
  | empty {l} : t.take? l = none → Step t (.take l) t .nothing
  | retired {l} : (t.mailbox? l).isSome = true →
      Step t (.retire l) (t.retire l).2 (.ofEvent? (t.pending l).head?)
  | dropped {l} : (t.mailbox? l).isSome = true → Step t (.drop l) (t.drop l) .nothing

/-- Every operation has one outcome, and the table after it is as this outcome says. -/
theorem step_of_operate? {t t' : Table ε κ} {operation : Operation ε κ}
    {events : List (Outcome ε)} (h : t.operate? operation = some (t', events)) :
    ∃ outcome, events = [outcome] ∧ Step t operation t' outcome := by
  unfold operate? at h
  split at h
  · rename_i hneeded
    obtain ⟨rfl, rfl⟩ : (t.perform operation).1 = t' ∧ [(t.perform operation).2] = events :=
      Prod.mk.inj (Option.some.inj h)
    refine ⟨_, rfl, ?_⟩
    cases operation with
    | lease key =>
      dsimp only [perform]
      split
      · exact .leased ‹_›
      · exact .full ‹_›
    | leaseAt index key =>
      dsimp only [perform]
      split
      · exact .leasedAt ‹_›
      · exact .occupied ‹_›
    | post index event accepts =>
      dsimp only [perform]
      split
      · exact .posted ‹_›
      · exact .turnedAway ‹_›
    | take l =>
      dsimp only [perform]
      split
      · exact .received ‹_›
      · exact .empty ‹_›
    | retire l =>
      dsimp only [perform]
      rw [retire_fst]
      exact .retired hneeded
    | drop l => exact .dropped hneeded
  · cases h

theorem step_of_mem {s t : Table ε κ} {h : List (Entry ε κ)} (hrun : Run operate? s h t)
    {tr : Entry ε κ} (htr : tr ∈ h) :
    ∃ outcome, tr.events = [outcome] ∧ Step tr.before tr.move tr.after outcome := by
  obtain ⟨front, back, rfl⟩ := List.append_of_mem htr
  exact step_of_operate? hrun.split.2.1

/-- No operation adds or removes a slot. -/
theorem Step.length_eq {t t' : Table ε κ} {operation : Operation ε κ} {outcome : Outcome ε}
    (h : Step t operation t' outcome) : t'.slots.length = t.slots.length := by
  cases h with
  | leased h =>
    obtain ⟨i, -, h⟩ := Option.map_eq_some_iff.1 h
    cases h
    exact List.length_set
  | leasedAt h =>
    obtain ⟨-, h⟩ := Option.ite_none_right_eq_some.1 h
    cases h
    exact List.length_set
  | posted h => exact length_postIf h
  | received h => exact length_take? h
  | retired => exact length_retire t _
  | dropped => exact length_drop t _
  | full | occupied | turnedAway | empty => rfl

end ShortMessage.Transaction.Table
