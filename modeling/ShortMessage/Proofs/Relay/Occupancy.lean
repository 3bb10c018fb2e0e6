import ShortMessage.Proofs.Relay.Emissions
import ShortMessage.Proofs.Transaction.Occupancy

/-!
# How many references are free

Whatever ends a request — its answer, a failure of the transport, its timer, or that someone gives
it up — its reference is free again, and free once.  `Booked` says so of a history: the references
that are not free are those of the requests in progress, one each, and a request is refused exactly
when it looks for a reference and none is free (`booked_of_run`).
-/

namespace ShortMessage.Relay

open Transaction
open Entity (leaseOf?)

/-- The requests that have a reference. -/
def Entity.inProgress (e : Entity) : List TaskId := e.references.tenants e.lease? e.started

/-- Does a task look for a reference in this step when none is free? -/
def Refuses (id : TaskId) (tr : Step) : Prop :=
  tr.move = .run id ∧ tr.before.freeReferences = 0 ∧
    ∃ r, tr.before.task? id = some (.requesting r .opening) ∧ carriesReport r = false

/-- A request gets a reference that was free, and is sent under it. -/
def Opens (e : Entity) (id : TaskId) (r : Request) : Prop :=
  ∃ lease e', e.references.isIdle lease.index = true ∧ e'.lease? id = some lease ∧
    e.run id = some (e', [.emitted id (r.message e.config.centre (UInt8.ofNat lease.index))])

/-- What a history that leads to `e` says of the references. -/
structure Booked (h : List Step) (e : Entity) : Prop where
  /-- Every reference is free or that of one request in progress. -/
  free : e.freeReferences + e.inProgress.length = referenceCount
  /-- A request that may have been sent is in progress at least until it knows its outcome. -/
  outstanding : ∀ {id r phase}, e.task? id = some (.requesting r phase) → phase.isOpen = true →
    phase ≠ .opening → id ∈ e.inProgress
  ledger : Ledger Entity.references Entity.lease? h e
  /-- A request that may be sent finds a reference if one is free, and is refused otherwise. -/
  opens : ∀ {id r}, e.task? id = some (.requesting r .opening) → carriesReport r = false →
    e.freeReferences ≠ 0 → Opens e id r
  refuses : ∀ {id r}, e.task? id = some (.requesting r .opening) → carriesReport r = false →
    e.freeReferences = 0 →
    e.run id = some (e.remove id, [.returned id (.requested (.error (.relayCause .congestion)))])
  /-- A request is refused without a word exactly when it found no free reference. -/
  refused : ∀ {id s}, Returned h id s (.requested (.error (.relayCause .congestion))) ∧
    emissions h id = [] ↔ ∃ tr ∈ h, tr.before = s ∧ Refuses id tr

section

variable {config : Config} {h : List Step} {e e' s : Entity} {id : TaskId} {r : Request}
  {move : Move Input} {events : List (Event Message Result)} {tr : Step} {l : Lease}

theorem Entity.Rule.advance (hr : Entity.Rule e move e' events) (ho : e.Orderly) :
    e.references.Advance e'.references := by
  cases hr with
  | opened ht hc hl => exact .change (.lease (ho.accounts.sound.leased_of_lease? hl))
  | took ht htake => exact .change (.take htake)
  | retired ht => exact .change .retire
  | closed ht => exact .change .drop
  | delivered ht hc hp => exact .post hp
  | @aborted id task ht =>
    cases hl : leaseOf? task with
    | none => exact .change (l := none) .keep
    | some lease => exact .change .drop
  | _ => exact .change (l := none) .keep

theorem Entity.Orderly.kept (ho : e.Orderly) :
    Kept Entity.references Entity.lease? Entity.started referenceCount e :=
  ⟨ho.accounts, ho.length, fun hid => by simp [Entity.lease?, ho.fresh hid]⟩

/-! ## Refusals -/

theorem run_of_opening (ht : e.task? id = some (.requesting r .opening))
    (hc : carriesReport r = false) : e.run id = Entity.openRequest.takeReference e id r := by
  cases r with
  | transfer m =>
    have hm : m.isReport = false := hc
    simp [Entity.run, ht, Entity.runRequest, Entity.openRequest, hm]
  | notice => simp [Entity.run, ht, Entity.runRequest, Entity.openRequest]

theorem run_of_full (ht : e.task? id = some (.requesting r .opening))
    (hc : carriesReport r = false) (hfull : e.freeReferences = 0) : e.run id =
      some (e.remove id, [.returned id (.requested (.error (.relayCause .congestion)))]) := by
  have hl : e.references.lease? r.answerDirection = none :=
    Table.lease?_eq_none_iff_idleCount.2 hfull
  rw [run_of_opening ht hc, Entity.openRequest.takeReference, hl]
  rfl

theorem opens_of_free (ho : e.Orderly) (ht : e.task? id = some (.requesting r .opening))
    (hc : carriesReport r = false) (hfree : e.freeReferences ≠ 0) : Opens e id r := by
  cases hl : e.references.lease? r.answerDirection with
  | none => exact absurd (Table.lease?_eq_none_iff_idleCount.1 hl) hfree
  | some leased =>
    obtain ⟨lease, references⟩ := leased
    have hleased := ho.accounts.sound.leased_of_lease? hl
    refine ⟨lease, { e with references }.put id (.requesting r (.transmitting lease)),
      Table.isIdle_of_holder? hleased.index_lt hleased.idle, ?_, ?_⟩
    · exact Entity.lease?_eq (Entity.task?_put_self ht)
    · rw [run_of_opening ht hc, Entity.openRequest.takeReference, hl]

/-- A request is refused without a word when it finds no free reference, and only then. -/
theorem refused_iff (hrun : Run Entity.step? (.ofConfig config) h e) :
    Returned h id s (.requested (.error (.relayCause .congestion))) ∧ emissions h id = [] ↔
      ∃ tr ∈ h, tr.before = s ∧ Refuses id tr := by
  constructor
  · rintro ⟨⟨tr, htr, hbefore, hret⟩, hem⟩
    refine ⟨tr, htr, hbefore, ?_⟩
    obtain ⟨front, back, rfl⟩ := List.append_of_mem htr
    obtain ⟨hfront, hs, -⟩ := hrun.split
    obtain ⟨hmove, -, hwhy⟩ := (Entity.rule_of_step? hs).requested hret
    obtain ⟨m, -, -, ⟨⟩⟩ | ⟨r, ht, hc, hl, -⟩ | ⟨r, lease, ht⟩ := hwhy
    · exact ⟨hmove, Table.lease?_eq_none_iff_idleCount.1 hl, r, ht, hc⟩
    · -- a request that knows its outcome has been sent
      have hsaid := ((spoken_of_run hfront).said ht).1
      rw [emissions_append, hsaid] at hem
      cases hem
  · rintro ⟨tr, htr, rfl, hmove, hfull, r, ht, hc⟩
    obtain ⟨front, back, rfl⟩ := List.append_of_mem htr
    obtain ⟨hfront, hs, hback⟩ := hrun.split
    have hspoken := spoken_of_run hfront
    have hstep := run_of_full ht hc hfull
    rw [hmove] at hs
    obtain ⟨hafter, hevents⟩ := Prod.mk.inj (Option.some.inj (hstep.symm.trans hs))
    have hsilent : emissions back id = [] := by
      refine (Entity.silent_of_gone hback ?_ ?_).1
      · rw [← hafter, Entity.task?_remove, if_pos rfl]
      · rw [← hafter, Entity.started_remove]
        exact hspoken.orderly.lt_started ht
    refine ⟨⟨tr, htr, rfl, ?_⟩, ?_⟩
    · rw [← hevents]
      exact List.mem_singleton.2 rfl
    · rw [emissions_append, emissions_cons, hsilent, (hspoken.said ht).1, ← hevents]
      rfl

/-- The references of an entity are accounted for, whatever its tasks, its transport, the
application and the clock do. -/
theorem booked_of_run (hrun : Run Entity.step? (.ofConfig config) h e) : Booked h e := by
  have horderly {k s} (hrun : Run Entity.step? (.ofConfig config) k s) : s.Orderly :=
    (spoken_of_run hrun).orderly
  have ho := horderly hrun
  have hledger : Ledger Entity.references Entity.lease? h e :=
    ledger_of_run hrun (Accounts.idle _ _) (fun hfront => (horderly hfront).kept)
      fun hfront hs => (Entity.rule_of_step? hs).advance (horderly hfront)
  refine ⟨ho.kept.idleCount_add_length_tenants, ?_, hledger, opens_of_free ho, run_of_full,
    refused_iff hrun⟩
  intro id r phase ht hopen hphase
  obtain ⟨l, hl⟩ : ∃ l, leaseOf? (.requesting r phase) = some l := by
    cases phase with
    | opening => exact absurd rfl hphase
    | _ => exact ⟨_, rfl⟩
  exact ho.kept.mem_tenants.2 ⟨l, (Entity.lease?_eq ht).trans hl, ho.held ht hopen hl⟩

end

end ShortMessage.Relay
