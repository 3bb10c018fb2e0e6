import ShortMessage.Proofs.Transaction.Tasks
import ShortMessage.Relay.Entity

/-!
# What a relay entity can do

`Entity.Rule` lists every step of a relay entity, one constructor for each, with its guards and the
whole state after it; `rule_of_step?` says that there are no others.  The invariants of the entity
are proved from the rules.

* `Entity.Orderly` — new task numbers are unused, and the references are those of the requests
  (`Accounts`); kept by every step (`Orderly.step`).
-/

namespace ShortMessage.Relay

open Transaction (TaskId Table Lease Move Event Accounts)

/-- Is the outcome of a request still open? -/
def Requesting.isOpen : Requesting → Bool
  | .closing _ _ => false
  | _ => true

/-- What a request whose message may not be sent as one comes to. -/
def misuse (m : Transfer.Message) : Outcome :=
  .error (.unexpected "SMS-SUBMIT, SMS-COMMAND, SMS-DELIVER or SMS-STATUS-REPORT" m.label)

/-- Is what a request asks the other side to take only an answer? -/
def carriesReport : Request → Bool
  | .transfer m => m.isReport
  | .notice => false

/-- What an answer that no request takes comes to. -/
def refusal : Transaction.Undelivered Message → Failure
  | .refused _ => .relayCause .messageNotCompatible
  | .noOwner _ => .relayCause .invalidReference

/-- The references once a task is given up. -/
def forgo (references : Table Message Direction) : Option Lease → Table Message Direction
  | some lease => references.drop lease
  | none => references

namespace Entity

variable {e e' : Entity} {id j : TaskId}

/-! ## The list of tasks -/

@[simp] theorem task?_put (e : Entity) (id j : TaskId) (task : Task) :
    (e.put id task).task? j = if j = id then (e.task? id).map fun _ => task else e.task? j :=
  Transaction.lookup_replaced e.tasks id j task

theorem task?_put_self {task task' : Task} {references : Table Message Direction}
    (ht : e.task? id = some task) :
    (({ e with references } : Entity).put id task').task? id = some task' := by
  have ht0 : ({ e with references } : Entity).task? id = some task := ht
  rw [task?_put, if_pos rfl, ht0, Option.map_some]

@[simp] theorem task?_remove (e : Entity) (id j : TaskId) :
    (e.remove id).task? j = if j = id then none else e.task? j :=
  Transaction.lookup_removed e.tasks id j

@[simp] theorem task?_spawn (e : Entity) (task : Task) (j : TaskId) :
    (e.spawn task).task? j = (e.task? j).or (if j = e.started then some task else none) :=
  Transaction.lookup_added e.tasks e.started j task

@[simp] theorem references_put (e : Entity) (id : TaskId) (task : Task) :
    (e.put id task).references = e.references := rfl

@[simp] theorem references_remove (e : Entity) (id : TaskId) :
    (e.remove id).references = e.references := rfl

@[simp] theorem references_spawn (e : Entity) (task : Task) :
    (e.spawn task).references = e.references := rfl

@[simp] theorem started_put (e : Entity) (id : TaskId) (task : Task) :
    (e.put id task).started = e.started := rfl

@[simp] theorem started_remove (e : Entity) (id : TaskId) :
    (e.remove id).started = e.started := rfl

@[simp] theorem started_spawn (e : Entity) (task : Task) :
    (e.spawn task).started = e.started + 1 := rfl

@[simp] theorem task?_ofConfig (config : Config) (j : TaskId) :
    (ofConfig config).task? j = none := rfl

/-- The tables and the clock are no part of the list of tasks. -/
@[simp] theorem task?_references (e : Entity) (references : Table Message Direction)
    (j : TaskId) : ({ e with references } : Entity).task? j = e.task? j := rfl

/-! ## The rules -/

/-- Every step of a relay entity. -/
inductive Rule (e : Entity) : Move Input → Entity → List (Event Message Result) → Prop where
  | start (input : Input) : Rule e (.start input) (e.spawn (taskFor input)) []
  | misused {id m} : e.task? id = some (.requesting (.transfer m) .opening) → m.isReport = true →
      Rule e (.run id) (e.remove id) [.returned id (.requested (misuse m))]
  | congested {id r} : e.task? id = some (.requesting r .opening) → carriesReport r = false →
      e.references.lease? r.answerDirection = none →
      Rule e (.run id) (e.remove id) [.returned id (.requested (.error (.relayCause .congestion)))]
  | opened {id r lease references} : e.task? id = some (.requesting r .opening) →
      carriesReport r = false →
      e.references.lease? r.answerDirection = some (lease, references) →
      Rule e (.run id) ({ e with references }.put id (.requesting r (.transmitting lease)))
        [.emitted id (r.message e.config.centre (UInt8.ofNat lease.index))]
  | took {id r lease deadline answer references} :
      e.task? id = some (.requesting r (.awaiting lease deadline)) →
      e.references.take? lease = some (answer, references) →
      Rule e (.run id)
        ({ e with references }.put id (.requesting r (.closing lease (r.outcome (some answer))))) []
  | retired {id r lease} : e.task? id = some (.requesting r (.expired lease)) →
      Rule e (.run id) ({ e with references := (e.references.retire lease).2 }.put id
        (.requesting r (.closing lease (r.outcome (e.references.retire lease).1)))) []
  | closed {id r lease outcome} : e.task? id = some (.requesting r (.closing lease outcome)) →
      Rule e (.run id) ({ e with references := e.references.drop lease }.remove id)
        [.returned id (.requested outcome)]
  | delivered {id m references} : e.task? id = some (.indicating m .arrived) →
      Service.call? m = none →
      e.references.postIf m.reference.toNat m (fun direction m => m.direction = direction) =
        .ok references →
      Rule e (.run id) ({ e with references }.remove id) [.returned id (.indicated (.ok ()))]
  | undelivered {id m u} : e.task? id = some (.indicating m .arrived) →
      Service.call? m = none →
      e.references.postIf m.reference.toNat m (fun direction m => m.direction = direction) =
        .error u →
      Rule e (.run id) (e.remove id) [.returned id (.indicated (.error (refusal u)))]
  | called {id m call} : e.task? id = some (.indicating m .arrived) →
      Service.call? m = some call →
      Rule e (.run id) (e.put id (.indicating m .handling)) [.called id call]
  | sent {id r lease} : e.task? id = some (.requesting r (.transmitting lease)) →
      Rule e (.sent id (.ok ()))
        (e.put id (.requesting r (.awaiting lease (e.clock + e.config.answerTime)))) []
  | failed {id r lease failure} : e.task? id = some (.requesting r (.transmitting lease)) →
      Rule e (.sent id (.error failure))
        (e.put id (.requesting r (.closing lease (.error (sendFailure failure))))) []
  | replied {id m answer} : e.task? id = some (.indicating m (.replying answer)) →
      Rule e (.sent id (.ok ())) (e.remove id) [.returned id (.indicated (Service.result answer))]
  | unreplied {id m answer failure} : e.task? id = some (.indicating m (.replying answer)) →
      Rule e (.sent id (.error failure)) (e.remove id) [.returned id (.indicated (.error failure))]
  | answered {id m outcome now answer} : e.task? id = some (.indicating m .handling) →
      Service.answer m outcome now = .ok answer →
      Rule e (.answered id outcome now) (e.put id (.indicating m (.replying answer)))
        [.emitted id answer]
  | unanswered {id m outcome now failure} : e.task? id = some (.indicating m .handling) →
      Service.answer m outcome now = .error failure →
      Rule e (.answered id outcome now) (e.remove id) [.returned id (.indicated (.error failure))]
  | expired {id r lease deadline} : e.task? id = some (.requesting r (.awaiting lease deadline)) →
      deadline ≤ e.clock → e.references.pending lease = [] →
      Rule e (.expire id) (e.put id (.requesting r (.expired lease))) []
  | aborted {id task} : e.task? id = some task →
      Rule e (.abort id) ({ e with references := forgo e.references (leaseOf? task) }.remove id) []
  | elapsed (duration : Nat) :
      Rule e (.elapse duration) { e with clock := e.clock + duration } []

theorem rule_of_takeReference {r : Request} {events : List (Event Message Result)}
    (ht : e.task? id = some (.requesting r .opening)) (hr : carriesReport r = false)
    (h : openRequest.takeReference e id r = some (e', events)) : Rule e (.run id) e' events := by
  unfold openRequest.takeReference at h
  split at h
  · rename_i hl
    cases h
    exact .congested ht hr hl
  · rename_i lease references hl
    cases h
    exact .opened ht hr hl

theorem rule_of_runRequest {r : Request} {phase : Requesting} {events : List (Event Message Result)}
    (ht : e.task? id = some (.requesting r phase))
    (h : e.runRequest id r phase = some (e', events)) : Rule e (.run id) e' events := by
  cases phase with
  | opening =>
    simp only [runRequest] at h
    unfold openRequest at h
    split at h
    · split at h
      · rename_i hm
        cases h
        exact .misused ht hm
      · rename_i hm
        exact rule_of_takeReference ht (by simpa [carriesReport] using hm) h
    · exact rule_of_takeReference ht rfl h
  | transmitting lease => simp [runRequest] at h
  | awaiting lease deadline =>
    simp only [runRequest] at h
    split at h
    · cases h
    · rename_i answer references htake
      cases h
      exact .took ht htake
  | expired lease =>
    simp only [runRequest, become] at h
    cases h
    exact .retired ht
  | closing lease outcome =>
    simp only [runRequest, finish] at h
    cases h
    exact .closed ht

theorem rule_of_runIndication {m : Message} {phase : Indicating}
    {events : List (Event Message Result)} (ht : e.task? id = some (.indicating m phase))
    (h : e.runIndication id m phase = some (e', events)) : Rule e (.run id) e' events := by
  cases phase with
  | arrived =>
    simp only [runIndication] at h
    split at h
    · rename_i hcall
      unfold deliverAnswer at h
      split at h
      · rename_i references hpost
        cases h
        exact .delivered ht hcall hpost
      · rename_i hpost
        cases h
        exact .undelivered ht hcall hpost
      · rename_i hpost
        cases h
        exact .undelivered ht hcall hpost
    · rename_i call hcall
      cases h
      exact .called ht hcall
  | handling => simp [runIndication] at h
  | replying answer => simp [runIndication] at h

/-- A relay entity does nothing but what the rules say. -/
theorem rule_of_step? {move : Move Input} {events : List (Event Message Result)}
    (h : e.step? move = some (e', events)) : Rule e move e' events := by
  cases move with
  | start input => cases h; exact .start input
  | run id =>
    simp only [step?, run] at h
    split at h
    · rename_i ht; exact rule_of_runRequest ht h
    · rename_i ht; exact rule_of_runIndication ht h
    · cases h
  | sent id result =>
    simp only [step?, Entity.sent] at h
    split at h
    · rename_i ht; cases h; exact .sent ht
    · rename_i ht; cases h; exact .failed ht
    · rename_i ht; cases h; exact .replied ht
    · rename_i ht; cases h; exact .unreplied ht
    · cases h
  | answered id outcome now =>
    simp only [step?, Entity.answered] at h
    split at h
    · rename_i ht
      split at h
      · rename_i ha; cases h; exact .answered ht ha
      · rename_i ha; cases h; exact .unanswered ht ha
    · cases h
  | expire id =>
    simp only [step?, expire] at h
    split at h
    · rename_i ht
      split at h
      · rename_i hd; cases h; exact .expired ht hd.1 hd.2
      · cases h
    · cases h
  | abort id =>
    simp only [step?, abort] at h
    split at h
    · cases h
    · rename_i task ht
      cases h
      convert Rule.aborted ht using 3
      cases leaseOf? task <;> rfl
  | elapse duration => cases h; exact .elapsed duration

/-! ## Requests and their references -/

/-- The lease of a task. -/
def lease? (e : Entity) (id : TaskId) : Option Lease := (e.task? id).bind leaseOf?

theorem lease?_eq {task : Task} (h : e.task? id = some task) : e.lease? id = leaseOf? task := by
  simp [lease?, h]

/-- New task numbers are unused, and the references are those of the requests. -/
structure Orderly (e : Entity) : Prop where
  fresh : ∀ {id}, e.started ≤ id → e.task? id = none
  length : e.references.slots.length = referenceCount
  accounts : Accounts e.references e.lease?
  /-- Only a request that knows its outcome can have given back its reference. -/
  held : ∀ {id r phase lease}, e.task? id = some (.requesting r phase) → phase.isOpen = true →
    leaseOf? (.requesting r phase) = some lease → e.references.isReleased lease = false

theorem Orderly.lt_started (h : e.Orderly) {task : Task} (ht : e.task? id = some task) :
    id < e.started := by
  refine Nat.lt_of_not_le fun hge => ?_
  rw [h.fresh hge] at ht
  cases ht

theorem orderly_ofConfig (config : Config) : (ofConfig config).Orderly :=
  ⟨fun _ => rfl, by simp [ofConfig, Table.idle], Accounts.idle _ _, by simp⟩

/-- A request that goes on with a lease of its own keeps it from all others. -/
theorem Orderly.lease_ne (h : e.Orderly) {l l' : Lease} (hi : e.lease? id = some l)
    (hj : e.lease? j = some l') (hne : j ≠ id) : l' ≠ l := by
  rintro rfl
  exact hne (h.accounts.unique hj hi)

/-- A task goes on with its references in order. -/
theorem Orderly.put {task task' : Task} {references : Table Message Direction} (h : e.Orderly)
    (ht : e.task? id = some task) (hlen : references.slots.length = referenceCount)
    (hacc : Accounts references fun j => if j = id then leaseOf? task' else e.lease? j)
    (hself : ∀ {r phase lease}, task' = .requesting r phase → phase.isOpen = true →
      leaseOf? task' = some lease → references.isReleased lease = false)
    (hothers : ∀ {j lease}, j ≠ id → e.lease? j = some lease →
      references.isReleased lease = e.references.isReleased lease) :
    ({ e with references }.put id task').Orderly := by
  refine ⟨?_, hlen, hacc.congr fun j => ?_, ?_⟩
  · intro j hj
    have hne : j ≠ id := by
      rintro rfl
      exact absurd (h.lt_started ht) (Nat.not_lt.2 hj)
    simpa [hne] using h.fresh hj
  · by_cases hj : j = id
    · simp [lease?, hj, ht]
    · simp [lease?, hj]
  · intro j r phase lease hj hopen hl
    by_cases hne : j = id
    · simp only [task?_put, task?_references, hne, ht, if_true, Option.map_some,
        Option.some.injEq] at hj
      subst hj
      exact hself rfl hopen hl
    · simp only [task?_put, task?_references, hne, if_false] at hj
      rw [references_put, hothers hne ((lease?_eq hj).trans hl)]
      exact h.held hj hopen hl

/-- A task ends with the references in order. -/
theorem Orderly.remove {references : Table Message Direction} (h : e.Orderly)
    (hlen : references.slots.length = referenceCount)
    (hacc : Accounts references fun j => if j = id then none else e.lease? j)
    (hothers : ∀ {j lease}, j ≠ id → e.lease? j = some lease →
      references.isReleased lease = e.references.isReleased lease) :
    ({ e with references }.remove id).Orderly := by
  refine ⟨?_, hlen, hacc.congr fun j => ?_, ?_⟩
  · intro j hj
    by_cases hne : j = id
    · simp [hne]
    · simpa [hne] using h.fresh hj
  · by_cases hj : j = id
    · simp [lease?, hj]
    · simp [lease?, hj]
  · intro j r phase lease hj hopen hl
    by_cases hne : j = id
    · simp [hne] at hj
    · simp only [task?_remove, task?_references, hne, if_false] at hj
      rw [references_remove, hothers hne ((lease?_eq hj).trans hl)]
      exact h.held hj hopen hl

/-- A task that goes on with the reference it has changes no one's. -/
theorem lease?_eq_ite {task : Task} (ht : e.task? id = some task) {lease : Option Lease}
    (hlease : lease = leaseOf? task) (j : TaskId) :
    (if j = id then lease else e.lease? j) = e.lease? j := by
  by_cases hj : j = id
  · simp only [hj, if_true, hlease, lease?_eq ht]
  · simp only [hj, if_false]

/-- A task goes on and leaves the references alone. -/
theorem Orderly.put_same {task task' : Task} (h : e.Orderly) (ht : e.task? id = some task)
    (hlease : leaseOf? task' = leaseOf? task)
    (hself : ∀ {r phase lease}, task' = .requesting r phase → phase.isOpen = true →
      leaseOf? task' = some lease → e.references.isReleased lease = false) :
    (e.put id task').Orderly := by
  exact h.put ht h.length (h.accounts.congr (lease?_eq_ite ht hlease)) hself fun _ _ => rfl

/-- A task without a reference ends. -/
theorem Orderly.remove_same {task : Task} (h : e.Orderly) (ht : e.task? id = some task)
    (hlease : leaseOf? task = none) : (e.remove id).Orderly := by
  exact h.remove h.length (h.accounts.congr (lease?_eq_ite ht hlease.symm)) fun _ _ => rfl

/-- A task that is new has no reference. -/
theorem Orderly.spawn {task : Task} (h : e.Orderly) (hnone : leaseOf? task = none) :
    (e.spawn task).Orderly := by
  refine ⟨fun {j} hj => ?_, h.length, h.accounts.congr fun j => ?_, ?_⟩
  · simp only [started_spawn] at hj
    have hne : j ≠ e.started := by omega
    simp [hne, h.fresh (by omega : e.started ≤ j)]
  · by_cases hj : j = e.started
    · subst hj
      simp [lease?, h.fresh, hnone]
    · simp [lease?, hj]
  · intro j r phase lease hj hopen hl
    by_cases hne : j = e.started
    · subst hne
      simp only [task?_spawn, h.fresh (Nat.le_refl _), Option.none_or, if_true,
        Option.some.injEq] at hj
      rw [← hj, hnone] at hl
      cases hl
    · simp only [task?_spawn, hne, if_false, Option.or_none] at hj
      exact h.held hj hopen hl

theorem Orderly.step {move : Move Input} {events : List (Event Message Result)} (h : e.Orderly)
    (hs : e.step? move = some (e', events)) : e'.Orderly := by
  cases rule_of_step? hs with
  | start input => exact h.spawn (by cases input <;> rfl)
  | misused ht hm => exact h.remove_same ht rfl
  | congested ht hr hl => exact h.remove_same ht rfl
  | opened ht hr hl =>
    have hleased := h.accounts.sound.leased_of_lease? hl
    refine h.put ht (hleased.length.trans h.length)
      (h.accounts.leased hleased (lease?_eq ht) fun j => rfl) ?_ ?_
    · rintro r phase lease ⟨⟩ - ⟨⟩
      rw [hleased.isReleased, if_pos rfl]
    · intro j lease hj hlease
      rw [hleased.isReleased, if_neg (h.accounts.ne_of_leased hleased hlease)]
  | took ht htake =>
    refine h.put ht ((Table.length_take? htake).trans h.length)
      ((h.accounts.take? htake).congr (lease?_eq_ite ht rfl)) ?_ fun _ _ => Table.isReleased_take? htake _
    rintro r phase lease ⟨⟩ ⟨⟩
  | retired ht =>
    refine h.put ht ((Table.length_retire _ _).trans h.length)
      ((h.accounts.retire _).congr (lease?_eq_ite ht rfl)) ?_ ?_
    · rintro r phase lease ⟨⟩ ⟨⟩
    · intro j lease hj hlease
      rw [Table.isReleased_retire, if_neg (h.lease_ne (lease?_eq ht) hlease hj)]
  | closed ht =>
    refine h.remove ((Table.length_drop _ _).trans h.length)
      (h.accounts.drop (lease?_eq ht) fun j => rfl) ?_
    intro j lease hj hlease
    rw [Table.isReleased_drop, if_neg (h.lease_ne (lease?_eq ht) hlease hj)]
  | @delivered id m references ht hc hp =>
    refine h.remove ((Table.length_postIf hp).trans h.length)
      ((h.accounts.postIf hp).congr (lease?_eq_ite ht rfl)) ?_
    intro j lease _ _
    exact Table.isReleased_postIf hp lease
  | undelivered ht hc hp => exact h.remove_same ht rfl
  | called ht hc => exact h.put_same ht rfl (by rintro r phase lease ⟨⟩)
  | sent ht =>
    refine h.put_same ht rfl ?_
    rintro r phase lease ⟨⟩ - ⟨⟩
    exact h.held ht rfl rfl
  | failed ht => exact h.put_same ht rfl (by rintro r phase lease ⟨⟩ ⟨⟩)
  | replied ht => exact h.remove_same ht rfl
  | unreplied ht => exact h.remove_same ht rfl
  | answered ht ha => exact h.put_same ht rfl (by rintro r phase lease ⟨⟩)
  | unanswered ht ha => exact h.remove_same ht rfl
  | expired ht hd hp =>
    refine h.put_same ht rfl ?_
    rintro r phase lease ⟨⟩ - ⟨⟩
    exact h.held ht rfl rfl
  | @aborted id task ht =>
    rcases hl : leaseOf? task with _ | lease
    · exact h.remove_same ht hl
    · refine h.remove ((Table.length_drop _ _).trans h.length)
        (h.accounts.drop ((lease?_eq ht).trans hl) fun j => rfl) ?_
      intro j lease' hj hlease
      show (e.references.drop lease).isReleased lease' = _
      rw [Table.isReleased_drop, if_neg (h.lease_ne ((lease?_eq ht).trans hl) hlease hj)]
  | elapsed duration => exact ⟨h.fresh, h.length, h.accounts, h.held⟩

end Entity

end ShortMessage.Relay
