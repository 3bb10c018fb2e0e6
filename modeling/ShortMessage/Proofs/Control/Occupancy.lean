import ShortMessage.Proofs.Control.Tasks
import ShortMessage.Proofs.Relay.Occupancy

/-!
# How many transactions are free

A message to send has a transaction of this side until it knows its outcome, a request of the other
side has the one on which it came until it is served.  `Booked` says of a history that the
transactions that are not free are theirs, one each, and that every one is given back once,
whatever ends the task; and that sending is refused exactly when it looks for a transaction and
none is free (`booked_of_run`).  `occupancy_of_run` puts this beside what holds of references.
-/

namespace ShortMessage.Control

open Transaction

/-- The messages to send that have a transaction. -/
def Entity.opened (e : Entity) : List TaskId := e.outgoing.tenants e.leaseOut? e.started

/-- The requests of the other side that were accepted and are not done. -/
def Entity.inService (e : Entity) : List TaskId := e.incoming.tenants e.leaseIn? e.started

/-- Does a task look for a transaction in this step when none is free? -/
def Refuses (id : TaskId) (tr : Transit) : Prop :=
  tr.move = .run id ∧ tr.before.freeOutgoing = 0 ∧
    ∃ m, tr.before.task? id = some (.sending (.opening m))

/-- A message gets a transaction that was free, and is sent on it unless it cannot be written. -/
def Opens (e : Entity) (id : TaskId) (m : Relay.Message) : Prop :=
  ∃ lease e', e.outgoing.isIdle lease.index = true ∧ e'.leaseOut? id = some lease ∧
    ((∃ data, Message.carrying (ownTransaction lease) m = .ok data ∧
        e.run id = some (e', [.emitted id data])) ∨
      ∃ fault, Message.carrying (ownTransaction lease) m = .error fault ∧
        e'.task? id = some (.sending (.closing lease (.error (.codec fault)))) ∧
        e.run id = some (e', []))

/-- What a history that leads to `e` says of the transactions. -/
structure Booked (h : List Transit) (e : Entity) : Prop where
  /-- Every transaction is free or that of one task. -/
  freeOutgoing : e.freeOutgoing + e.opened.length = transactionCount
  freeIncoming : e.freeIncoming + e.inService.length = transactionCount
  /-- Data that is on its way has its transaction. -/
  delivering : ∀ {id s handover}, e.task? id = some (.sending (.delivering s handover)) →
    id ∈ e.opened
  /-- A request has its transaction from its acceptance to the end of its service. -/
  serving : ∀ {id lease}, e.leaseIn? id = some lease → id ∈ e.inService
  outgoing : Ledger Entity.outgoing Entity.leaseOut? h e
  incoming : Ledger Entity.incoming Entity.leaseIn? h e
  /-- A message finds a transaction if one is free, and is refused otherwise. -/
  opens : ∀ {id m}, e.task? id = some (.sending (.opening m)) → e.freeOutgoing ≠ 0 → Opens e id m
  refuses : ∀ {id m}, e.task? id = some (.sending (.opening m)) → e.freeOutgoing = 0 →
    e.run id = some (e.remove id, [.returned id (.sent (.error (.relayCause .congestion)))])
  /-- Sending is refused without a word exactly when it found no free transaction. -/
  refused : ∀ {id s}, Returned h id s (.sent (.error (.relayCause .congestion))) ∧
    emissions h id = [] ↔ ∃ tr ∈ h, tr.before = s ∧ Refuses id tr

section

variable {config : Config} {h k : List Transit} {e e' s : Entity} {id : TaskId} {task : Task}
  {task' : Option Task} {outgoing incoming : Table Message Unit} {m : Relay.Message}
  {move : Move Input} {events : List (Event Message Result)} {phase : Sending}

/-! ## The tables -/

theorem Entity.Rule.advance_outgoing (hr : Entity.Rule e move e' events) (ho : e.Orderly) :
    e.outgoing.Advance e'.outgoing := by
  cases hr with
  | act ht ha =>
    rw [outgoing_settle]
    obtain hc | ⟨m, -, -, hp, -⟩ := ha.outgoing_change ho.outgoing.sound
    · exact .change hc
    · exact .post hp
  | _ => exact .change (l := none) .keep

theorem Entity.Rule.advance_incoming (hr : Entity.Rule e move e' events) (ho : e.Orderly) :
    e.incoming.Advance e'.incoming := by
  cases hr with
  | act ht ha =>
    rw [incoming_settle]
    obtain hc | ⟨m, -, -, hp, -⟩ := ha.incoming_change ho.incoming.sound
    · exact .change hc
    · exact .post hp
  | _ => exact .change (l := none) .keep

theorem Entity.Orderly.keptOutgoing (ho : e.Orderly) :
    Kept Entity.outgoing Entity.leaseOut? Entity.started transactionCount e :=
  ⟨ho.outgoing, ho.outgoing_length, fun hid => by simp [Entity.leaseOut?, ho.fresh hid]⟩

theorem Entity.Orderly.keptIncoming (ho : e.Orderly) :
    Kept Entity.incoming Entity.leaseIn? Entity.started transactionCount e :=
  ⟨ho.incoming, ho.incoming_length, fun hid => by simp [Entity.leaseIn?, ho.fresh hid]⟩

/-! ## What a message to send lets others see -/

/-- Only a message that has no transaction yet, or that cannot be written, has said nothing. -/
def Voiced (h : List Transit) (id : TaskId) : Sending → Prop
  | .opening _ => emissions h id = []
  | .closing _ outcome => emissions h id ≠ [] ∨ ∃ fault, outcome = .error (.codec fault)
  | _ => emissions h id ≠ []

/-- What holds along every run, whatever the transport does. -/
structure Vocal (h : List Transit) (e : Entity) : Prop where
  orderly : e.Orderly
  fresh : ∀ {id}, e.started ≤ id → emissions h id = []
  voiced : ∀ {id phase}, e.task? id = some (.sending phase) → Voiced h id phase

theorem Voiced.of_ne_nil (hne : emissions h id ≠ []) (hphase : ∀ m, phase ≠ .opening m) :
    Voiced h id phase := by
  cases phase with
  | opening m => exact absurd rfl (hphase m)
  | closing lease outcome => exact .inl hne
  | _ => exact hne

/-- A message to send speaks as soon as it has its transaction, if it can be written. -/
theorem Voiced.step {phase' : Sending} (hv : Voiced h id phase)
    (ha : Entity.Act e id move (.sending phase) (some (.sending phase')) outgoing incoming events) :
    Voiced (h ++ [⟨e, move, events, e'⟩]) id phase' := by
  have hgrow (hne : emissions h id ≠ []) : emissions (h ++ [⟨e, move, events, e'⟩]) id ≠ [] := by
    rw [emissions_snoc]
    exact List.append_ne_nil_of_left_ne_nil hne _
  generalize hk : some (Task.sending phase') = task' at ha
  cases ha with
  | opened hl hd =>
    cases hk
    refine .of_ne_nil ?_ (by rintro _ ⟨⟩)
    rw [emissions_snoc]
    simp [Event.emittedBy?]
  | unwritable => cases hk; exact .inr ⟨_, rfl⟩
  | delivered ht hf | took ht hf | tookLate ht hf =>
    cases hk
    refine .of_ne_nil (hgrow hv) ?_
    cases hf <;> rintro _ ⟨⟩
  | untransmitted | transmitted | concluded | unconcluded | repeated | gaveUp | expired | lapsed |
    tookNothing =>
    cases hk
    exact .of_ne_nil (hgrow hv) (by rintro _ ⟨⟩)
  | _ => cases hk

theorem Vocal.step (hv : Vocal h e) (hs : e.step? move = some (e', events)) :
    Vocal (h ++ [⟨e, move, events, e'⟩]) e' := by
  have hr := Entity.rule_of_step? hs
  have hsilent {id : TaskId} (hid : actor? move ≠ some id) :
      emissions (h ++ [⟨e, move, events, e'⟩]) id = emissions h id := by
    rw [emissions_snoc, hr.emits_nothing hid, List.append_nil]
  refine ⟨hv.orderly.step hr, fun {id} hid => ?_, fun {id phase} ht' => ?_⟩
  · have hid := Nat.le_trans hr.started_le hid
    rw [hsilent (hr.absent (hv.orderly.fresh hid)).1, hv.fresh hid]
  · by_cases hactor : actor? move = some id
    · obtain ⟨phase0, outgoing, incoming, ht, ha, rfl⟩ := hr.sending_self hactor ht'
      exact (hv.voiced ht).step ha
    · obtain ht | ⟨m, -, rfl, rfl⟩ := hr.sending_of_ne hv.orderly hactor ht'
      · unfold Voiced
        rw [hsilent hactor]
        exact hv.voiced ht
      · exact (hsilent hactor).trans (hv.fresh (Nat.le_refl _))

theorem vocal_of_run (hrun : Run Entity.step? (.ofConfig config) h e) : Vocal h e := by
  induction hrun with
  | rest => exact ⟨Entity.orderly_ofConfig config, fun _ => rfl, by rintro _ _ ⟨⟩⟩
  | step _ hs ih => exact ih.step hs

/-- A task that has ended says nothing any more. -/
theorem Entity.silent_of_gone (hrun : Run Entity.step? e k e') (ho : e.Orderly)
    (hn : e.task? id = none) (hlt : id < e.started) : emissions k id = [] := by
  have hinv : e'.Orderly ∧ e'.task? id = none ∧ id < e'.started ∧ emissions k id = [] := by
    induction hrun with
    | rest => exact ⟨ho, hn, hlt, rfl⟩
    | step _ hs ih =>
      obtain ⟨ho, hn, hlt, hem⟩ := ih
      have hr := Entity.rule_of_step? hs
      refine ⟨ho.step hr, hr.absent_after ho hn hlt, Nat.lt_of_lt_of_le hlt hr.started_le, ?_⟩
      rw [emissions_snoc, hem, hr.emits_nothing (hr.absent hn).1]
      rfl
  exact hinv.2.2.2

/-! ## Refusals -/

theorem run_of_opening (ht : e.task? id = some (.sending (.opening m))) :
    e.run id = e.openSession id m := by
  simp [Entity.run, ht, Entity.runSending]

/-- Without a free transaction the task ends at once, with nothing sent. -/
theorem run_of_full (ht : e.task? id = some (.sending (.opening m)))
    (hfull : e.freeOutgoing = 0) : e.run id =
      some (e.remove id, [.returned id (.sent (.error (.relayCause .congestion)))]) := by
  have hl : e.outgoing.lease? () = none := Table.lease?_eq_none_iff_idleCount.2 hfull
  rw [run_of_opening ht, Entity.openSession, hl]
  rfl

/-- With a free transaction no message is refused for congestion. -/
theorem opens_of_free (ho : e.Orderly) (ht : e.task? id = some (.sending (.opening m)))
    (hfree : e.freeOutgoing ≠ 0) : Opens e id m := by
  cases hl : e.outgoing.lease? () with
  | none => exact absurd (Table.lease?_eq_none_iff_idleCount.1 hl) hfree
  | some leased =>
    obtain ⟨lease, outgoing⟩ := leased
    have hleased := ho.outgoing.sound.leased_of_lease? hl
    have hidle := Table.isIdle_of_holder? hleased.index_lt hleased.idle
    have hlease {handed : Task} (hl : Entity.outgoingLease? handed = some lease) :
        (({ e with outgoing } : Entity).put id handed).leaseOut? id = some lease :=
      (Entity.leaseOut?_eq (Entity.task?_put_self ht)).trans hl
    cases hd : Message.carrying (ownTransaction lease) m with
    | ok data =>
      have hout : Entity.outgoingLease?
          (.sending (.delivering ⟨m, lease, data⟩ (.transmitting 0))) = some lease := rfl
      refine ⟨lease, _, hidle, hlease hout, .inl ⟨data, hd, ?_⟩⟩
      unfold ownTransaction at hd
      rw [run_of_opening ht, Entity.openSession, hl]
      simp only [hd]
      rfl
    | error fault =>
      have hout : Entity.outgoingLease?
          (.sending (.closing lease (.error (.codec fault)))) = some lease := rfl
      refine ⟨lease, _, hidle, hlease hout, .inr ⟨fault, hd, Entity.task?_put_self ht, ?_⟩⟩
      unfold ownTransaction at hd
      rw [run_of_opening ht, Entity.openSession, hl]
      simp only [hd]
      rfl

/-- Sending is refused without a word when it finds no free transaction, and only then. -/
theorem refused_iff (hrun : Run Entity.step? (.ofConfig config) h e) :
    Returned h id s (.sent (.error (.relayCause .congestion))) ∧ emissions h id = [] ↔
      ∃ tr ∈ h, tr.before = s ∧ Refuses id tr := by
  constructor
  · rintro ⟨⟨tr, htr, hbefore, hret⟩, hem⟩
    refine ⟨tr, htr, hbefore, ?_⟩
    obtain ⟨front, back, rfl⟩ := List.append_of_mem htr
    obtain ⟨hfront, hs, -⟩ := hrun.split
    obtain ⟨m, ht, hl, -, hmove, -⟩ | ⟨lease, ht, -⟩ := (Entity.rule_of_step? hs).sent hret
    · exact ⟨hmove, Table.lease?_eq_none_iff_idleCount.1 hl, m, ht⟩
    · obtain hne | ⟨fault, ⟨⟩⟩ := (vocal_of_run hfront).voiced ht
      rw [emissions_append] at hem
      exact absurd (List.append_eq_nil_iff.1 hem).1 hne
  · rintro ⟨tr, htr, rfl, hmove, hfull, m, ht⟩
    obtain ⟨front, back, rfl⟩ := List.append_of_mem htr
    obtain ⟨hfront, hs, hback⟩ := hrun.split
    have hvocal := vocal_of_run hfront
    have hstep := run_of_full ht hfull
    rw [hmove] at hs
    obtain ⟨hafter, hevents⟩ := Prod.mk.inj (Option.some.inj (hstep.symm.trans hs))
    have hsilent : emissions back id = [] := by
      refine Entity.silent_of_gone hback (hvocal.orderly.step (Entity.rule_of_step? hs)) ?_ ?_
      · rw [← hafter, Entity.task?_remove, if_pos rfl]
      · rw [← hafter]
        exact hvocal.orderly.lt_started ht
    refine ⟨⟨tr, htr, rfl, ?_⟩, ?_⟩
    · rw [← hevents]
      exact List.mem_singleton.2 rfl
    · rw [emissions_append, emissions_cons, hsilent, hvocal.voiced ht, ← hevents]
      rfl

/-- The transactions of an entity are accounted for, whatever its tasks, its transport, the other
side, the application and the clock do. -/
theorem booked_of_run (hrun : Run Entity.step? (.ofConfig config) h e) : Booked h e := by
  have horderly {k s} (hrun : Run Entity.step? (.ofConfig config) k s) : s.Orderly :=
    (vocal_of_run hrun).orderly
  have ho := horderly hrun
  refine ⟨ho.keptOutgoing.idleCount_add_length_tenants, ho.keptIncoming.idleCount_add_length_tenants,
    fun ht => ?_, fun hl => ho.keptIncoming.mem_tenants.2 ⟨_, hl, ho.kept hl⟩, ?_, ?_,
    opens_of_free ho, run_of_full, refused_iff hrun⟩
  · exact ho.keptOutgoing.mem_tenants.2 ⟨_, Entity.leaseOut?_eq ht, ho.held ht⟩
  · exact ledger_of_run hrun (Accounts.idle _ _) (fun hfront => (horderly hfront).keptOutgoing)
      fun hfront hs => (Entity.rule_of_step? hs).advance_outgoing (horderly hfront)
  · exact ledger_of_run hrun (Accounts.idle _ _) (fun hfront => (horderly hfront).keptIncoming)
      fun hfront hs => (Entity.rule_of_step? hs).advance_incoming (horderly hfront)

/-- References and transactions are accounted for along every run. -/
theorem occupancy_of_run {config' : Relay.Config} {h' : List Relay.Step} {e' : Relay.Entity}
    (hrelay : Run Relay.Entity.step? (.ofConfig config') h' e')
    (hcontrol : Run Entity.step? (.ofConfig config) h e) : Relay.Booked h' e' ∧ Booked h e :=
  ⟨Relay.booked_of_run hrelay, booked_of_run hcontrol⟩

/-- Of five requests one is answered, one cannot be sent, one is given up, one waits in vain, and
one is still waiting. -/
def fourEnds : List (Move Relay.Input) :=
  [.start (.request .notice), .start (.request .notice), .start (.request .notice),
    .start (.request .notice), .start (.request .notice), .run 0, .run 1, .run 2, .run 3,
    .sent 0 (.ok ()), .sent 1 (.error (.control .networkFailure)), .sent 2 (.ok ()), .sent 3 (.ok ()),
    .start (.indication (.ack .toMobile 0 none)), .run 5, .run 0, .run 0, .run 1, .abort 2,
    .elapse 35000, .expire 3, .run 3, .run 3, .run 4]

/-- The ninth message finds no transaction, while the other side opens one of its own. -/
def nineToSend : List (Move Input) :=
  List.replicate 9 (.start (.send (.memoryAvailable 7))) ++ (List.range 9).map .run ++
    [.start (.receive (.data ⟨false, 3⟩ [6, 1])), .run 9, .run 9, .sent 9 (.ok ()), .run 10]

theorem occupancy_nineToSend : ∃ h' e' h e,
    replay Relay.Entity.step? (.ofConfig {}) fourEnds = some (h', e') ∧
      replay Entity.step? (.ofConfig {}) nineToSend = some (h, e) ∧
      (Relay.Booked h' e' ∧ Booked h e) ∧
      e'.freeReferences = 255 ∧ e'.inProgress = [4] ∧ e.freeOutgoing = 0 ∧ e.freeIncoming = 7 ∧
      e.inService = [10] ∧ (e.task? 8).isNone ∧ emissions h 8 = [] := by
  have hrelay : (replay Relay.Entity.step? (.ofConfig {}) fourEnds).any (fun r =>
      r.2.freeReferences == 255 && r.2.inProgress == [4]) = true := by
    decide +kernel
  have hcontrol : (replay Entity.step? (.ofConfig {}) nineToSend).any (fun r =>
      r.2.freeOutgoing == 0 && r.2.freeIncoming == 7 && r.2.inService == [10] &&
        (r.2.task? 8).isNone && emissions r.1 8 == []) = true := by
    decide +kernel
  obtain ⟨h', e', hr', hrun', hc'⟩ := exists_run_of_replay hrelay
  obtain ⟨h, e, hr, hrun, hc⟩ := exists_run_of_replay hcontrol
  simp only [Bool.and_eq_true, beq_iff_eq] at hc' hc
  exact ⟨h', e', h, e, hr', hr, occupancy_of_run hrun' hrun, hc'.1, hc'.2, hc.1.1.1.1, hc.1.1.1.2,
    hc.1.1.2, hc.1.2, hc.2⟩

end

end ShortMessage.Control
