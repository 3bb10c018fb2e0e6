import ShortMessage.Proofs.Control.Serving

/-!
# What tasks take

A message that comes in is reported as delivered when it is put into a mailbox (`acceptances`,
`arrivals`); whether its transaction takes it is another matter (`consumptions`).  Until a task ends,
all that came in for it was taken by it, in the order in which it came, or is still in its mailbox:
`Tally`, of every task of every run (`tallied_of_run`).
-/

namespace ShortMessage.Control

open Transaction

/-! ## What a task takes -/

/-- The message that a task takes from its mailbox when it runs. -/
def Entity.next? (e : Entity) (id : TaskId) : Option Message :=
  match e.task? id with
  | some (.sending (.delivering s (.awaiting _ _))) | some (.sending (.awaitingAnswer s _))
  | some (.sending (.expired s)) => (e.outgoing.pending s.lease).head?
  | some (.serving (.delivering lease _ (.awaiting _ _))) => (e.incoming.pending lease).head?
  | _ => none

/-- The message that a task takes in a step. -/
def consumption? (id : TaskId) (tr : Transit) : Option Message :=
  match tr.move with
  | .run j => if j = id then tr.before.next? id else none
  | _ => none

/-- The messages that a task has taken, the first one first. -/
def consumptions (h : List Transit) (id : TaskId) : List Message := h.filterMap (consumption? id)

section

variable {config : Config} {h k : List Transit} {tr : Transit} {e e' : Entity} {id : TaskId}
  {move : Move Input} {events : List (Event Message Result)} {task : Task} {lease : Lease}

theorem consumptions_snoc :
    consumptions (h ++ [tr]) id = consumptions h id ++ (consumption? id tr).toList :=
  filterMap_snoc _

theorem consumptions_append : consumptions (h ++ k) id = consumptions h id ++ consumptions k id :=
  List.filterMap_append

theorem acceptances_append : acceptances (h ++ k) id = acceptances h id ++ acceptances k id :=
  List.filterMap_append

theorem arrivals_append : arrivals (h ++ k) lease = arrivals h lease ++ arrivals k lease :=
  List.filterMap_append

/-- A task takes something only in a step of its own. -/
theorem consumption?_of_ne (hid : actor? move ≠ some id) :
    consumption? id ⟨e, move, events, e'⟩ = none := by
  unfold consumption?
  split
  · rename_i j hmove
    rw [if_neg]
    rintro rfl
    exact hid (congrArg actor? hmove)
  · rfl

theorem consumption?_of_next? (hn : e.next? id = none) :
    consumption? id ⟨e, move, events, e'⟩ = none := by
  unfold consumption?
  split
  · simp [hn]
  · rfl

/-! ## What came in was taken or is there -/

/-- What came in for a task was taken or is in the mailbox. -/
structure Tally (h : List Transit) (e : Entity) (id : TaskId) (task : Task) : Prop where
  outgoing : ∀ lease, Entity.outgoingLease? task = some lease →
    acceptances h id = consumptions h id ++ e.outgoing.pending lease
  incoming : ∀ lease, Entity.incomingLease? task = some lease →
    arrivals h lease = consumptions h id ++ e.incoming.pending lease
  unopened : Entity.outgoingLease? task = none → acceptances h id = []
  untaken : Entity.outgoingLease? task = none → (∀ s, task ≠ .serving s) → consumptions h id = []

/-- Nothing comes in for a task without a transaction of its own. -/
theorem acceptance?_eq_none_of_leaseOut? (hl : tr.before.leaseOut? id = none) :
    acceptance? id tr = none := by
  rcases hacc : acceptance? id tr with _ | x
  · rfl
  · obtain ⟨_, _, -, -, -, -, hholds⟩ := Entity.acceptance?_eq_some hacc
    obtain ⟨_, hl', -⟩ := Entity.holds_iff.1 hholds
    rw [hl] at hl'
    cases hl'

/-- A task that delivers a message ends. -/
theorem Entity.Act.delivers_nothing {task' : Task} {outgoing incoming : Table Message Unit}
    (ha : Entity.Act e id move task (some task') outgoing incoming events) (j : TaskId)
    (lease : Lease) : acceptance? j ⟨e, move, events, e'⟩ = none ∧
      arrival? lease ⟨e, move, events, e'⟩ = none := by
  have hends {k : TaskId} {result : Result} (hev : events = [.returned k result]) : False := by
    have hmem : Event.returned k result ∈ events := hev ▸ List.mem_singleton.2 rfl
    obtain rfl : k = id := ha.task_of_mem _ hmem
    exact absurd (ha.gone hmem) (by simp)
  constructor
  · rcases hacc : acceptance? j ⟨e, move, events, e'⟩ with _ | x
    · rfl
    · obtain ⟨_, _, -, hev, -⟩ := Entity.acceptance?_eq_some hacc
      exact (hends hev).elim
  · rcases harr : arrival? lease ⟨e, move, events, e'⟩ with _ | x
    · rfl
    · obtain ⟨_, _, -, hev, -⟩ := arrival?_eq_some harr
      exact (hends hev).elim

/-- While another task acts, what comes in is added to the mailbox and nothing is taken. -/
theorem Tally.of_ne (ht : Tally h e id task) (ho : e.Orderly) (hr : Entity.Rule e move e' events)
    (htask : e.task? id = some task) (hid : actor? move ≠ some id) :
    Tally (h ++ [⟨e, move, events, e'⟩]) e' id task := by
  have hcons : consumptions (h ++ [⟨e, move, events, e'⟩]) id = consumptions h id := by
    rw [consumptions_snoc, consumption?_of_ne hid]
    exact List.append_nil _
  refine ⟨fun lease hl => ?_, fun lease hl => ?_, fun hl => ?_, fun hl hs => ?_⟩
  · rw [acceptances_snoc, hcons, ht.outgoing lease hl,
      hr.pending_of_ne ho hid ((Entity.leaseOut?_eq htask).trans hl), List.append_assoc]
  · rw [arrivals_snoc, hcons, ht.incoming lease hl,
      hr.incoming_pending ho ((Entity.leaseIn?_eq htask).trans hl) hid, List.append_assoc]
  · rw [acceptances_snoc, ht.unopened hl,
      acceptance?_eq_none_of_leaseOut? ((Entity.leaseOut?_eq htask).trans hl)]
    rfl
  · rw [hcons, ht.untaken hl hs]

section

variable {task' : Task} {outgoing incoming : Table Message Unit}

/-- A task that keeps its transaction takes its oldest message, or none. -/
theorem Entity.Act.consumes (e' : Entity) (ht : e.task? id = some task)
    (ha : Entity.Act e id move task (some task') outgoing incoming events) :
    (∀ lease, Entity.outgoingLease? task = some lease → Entity.outgoingLease? task' = some lease ∧
      e.outgoing.pending lease =
        (consumption? id ⟨e, move, events, e'⟩).toList ++ outgoing.pending lease) ∧
    ∀ lease, Entity.incomingLease? task = some lease → Entity.incomingLease? task' = some lease ∧
      e.incoming.pending lease =
        (consumption? id ⟨e, move, events, e'⟩).toList ++ incoming.pending lease := by
  have hkeep (hn : e.next? id = none ∨ ∀ j, move ≠ .run j) (t : Table Message Unit) (l : Lease) :
      t.pending l = (consumption? id ⟨e, move, events, e'⟩).toList ++ t.pending l := by
    have hnone : consumption? id ⟨e, move, events, e'⟩ = none := by
      obtain hn | hmove := hn
      · exact consumption?_of_next? hn
      · unfold consumption?
        split
        · rename_i j hj
          exact absurd hj (hmove j)
        · rfl
    rw [hnone]
    rfl
  generalize hk : some task' = task'' at ha
  cases ha with
  | delivered htake hf | took htake hf =>
    cases hk
    refine ⟨fun l hl => ?_, by rintro _ ⟨⟩⟩
    cases hl
    refine ⟨hf.lease, ?_⟩
    simp [consumption?, Entity.next?, ht, Table.pending_take? htake]
  | confirmed htake =>
    cases hk
    refine ⟨by rintro _ ⟨⟩, fun l hl => ?_⟩
    cases hl
    refine ⟨rfl, ?_⟩
    simp [consumption?, Entity.next?, ht, Table.pending_take? htake]
  | @tookLate s m phase word hret hf =>
    cases hk
    refine ⟨fun l hl => ?_, by rintro _ ⟨⟩⟩
    cases hl
    refine ⟨hf.lease, ?_⟩
    rw [Table.retire_fst] at hret
    obtain ⟨rest, hrest⟩ := List.head?_eq_some_iff.1 hret
    simp [consumption?, Entity.next?, ht, Table.pending_retire, hrest]
  | tookNothing hret =>
    cases hk
    refine ⟨fun l hl => ?_, by rintro _ ⟨⟩⟩
    cases hl
    refine ⟨rfl, ?_⟩
    rw [Table.retire_fst, List.head?_eq_none_iff] at hret
    simp [consumption?, Entity.next?, ht, Table.pending_retire, hret]
  | lapsed hpending =>
    cases hk
    refine ⟨fun l hl => ⟨hl, hkeep (.inl ?_) _ _⟩, by rintro _ ⟨⟩⟩
    simp [Entity.next?, ht, hpending]
  | opened | unwritable | accepted =>
    cases hk
    exact ⟨by rintro _ ⟨⟩, by rintro _ ⟨⟩⟩
  | repeated | gaveUp | expired | replyRepeated | replyGivenUp | transmitted | untransmitted |
    concluded | unconcluded | replyTransmitted | replyUntransmitted | refusalTransmitted |
    replied | unreplied | unaccepted =>
    cases hk
    exact ⟨fun l hl => ⟨hl, hkeep (.inr (by simp)) _ _⟩,
      fun l hl => ⟨hl, hkeep (.inr (by simp)) _ _⟩⟩
  | called | uncalled =>
    cases hk
    exact ⟨by rintro _ ⟨⟩, fun l hl => ⟨hl, hkeep (.inl (by simp [Entity.next?, ht])) _ _⟩⟩
  | read | unknown | stray | passedOver | lookedAt | rejected | tooLate =>
    cases hk
    exact ⟨by rintro _ ⟨⟩, by rintro _ ⟨⟩⟩
  | _ => cases hk

/-- A task that gets a transaction has an empty mailbox for it. -/
theorem Entity.Act.opens (ho : e.Orderly)
    (ha : Entity.Act e id move task (some task') outgoing incoming events) :
    (∀ lease, Entity.outgoingLease? task = none → Entity.outgoingLease? task' = some lease →
      (∀ s, task ≠ .serving s) ∧ outgoing.pending lease = []) ∧
    ∀ lease, Entity.incomingLease? task = none → Entity.incomingLease? task' = some lease →
      (∀ s, task ≠ .serving s) ∧ Entity.outgoingLease? task = none ∧
        e.incoming.issued ≤ lease.serial ∧ incoming.pending lease = [] := by
  generalize hk : some task' = task'' at ha
  cases ha with
  | opened hl | unwritable hl =>
    cases hk
    refine ⟨fun l _ hnew => ⟨by simp, ?_⟩, by rintro _ - ⟨⟩⟩
    cases hnew
    rw [(ho.outgoing.sound.leased_of_lease? hl).pending, if_pos rfl]
  | accepted hl =>
    cases hk
    refine ⟨by rintro _ - ⟨⟩, fun l _ hnew => ⟨by simp, rfl, ?_⟩⟩
    cases hnew
    have hleased := (ho.incoming.sound.leased_of_leaseAt? hl).1
    exact ⟨Nat.le_of_eq hleased.serial.symm, by rw [hleased.pending, if_pos rfl]⟩
  | delivered _ hf | took _ hf | tookLate _ hf =>
    cases hk
    refine ⟨by rintro _ ⟨⟩, fun l _ hnew => ?_⟩
    cases hf <;> cases hnew
  | congested | closed | served | unknownStray | unread | posted | postedIncoming | strayError |
    withdrawn | replyDone | replyFailed | aborted => cases hk
  | _ =>
    cases hk
    simp [Entity.outgoingLease?, Entity.incomingLease?]

/-- A task that serves a request does nothing else until it ends. -/
theorem Entity.Act.serving {s : Serving}
    (ha : Entity.Act e id move (.serving s) (some task') outgoing incoming events) :
    ∃ s', task' = .serving s' := by
  generalize hk : Task.serving s = task at ha
  generalize hk' : some task' = task'' at ha
  cases ha with
  | called | uncalled | replied | unreplied | confirmed | replyTransmitted | replyUntransmitted |
    refusalTransmitted | replyRepeated | replyGivenUp => exact ⟨_, Option.some.inj hk'⟩
  | served | aborted => cases hk'
  | _ => cases hk

/-- In its own step a task takes its oldest message, or gets an empty mailbox. -/
theorem Tally.step (ht : Tally h e id task) (ho : e.Orderly)
    (hnew : ∀ {lease : Lease}, e.incoming.issued ≤ lease.serial → arrivals h lease = [])
    (htask : e.task? id = some task)
    (ha : Entity.Act e id move task (some task') outgoing incoming events)
    (hout : e'.outgoing = outgoing) (hin : e'.incoming = incoming) :
    Tally (h ++ [⟨e, move, events, e'⟩]) e' id task' := by
  obtain ⟨htakes, htakesIn⟩ := ha.consumes e' htask
  obtain ⟨hopens, hopensIn⟩ := ha.opens ho
  have hacc : acceptances (h ++ [⟨e, move, events, e'⟩]) id = acceptances h id := by
    rw [acceptances_snoc, (ha.delivers_nothing id ⟨0, 0⟩).1]
    exact List.append_nil _
  have harr (l : Lease) : arrivals (h ++ [⟨e, move, events, e'⟩]) l = arrivals h l := by
    rw [arrivals_snoc, (ha.delivers_nothing id l).2]
    exact List.append_nil _
  -- a task that has no mailbox yet takes nothing
  have hcons (hnone : Entity.outgoingLease? task = none) (hs : ∀ s, task ≠ .serving s) :
      consumptions (h ++ [⟨e, move, events, e'⟩]) id = [] := by
    have hnext : e.next? id = none := by
      unfold Entity.next?
      rw [htask]
      split <;> simp_all [Entity.outgoingLease?]
    rw [consumptions_snoc, ht.untaken hnone hs, consumption?_of_next? hnext]
    rfl
  have hnone (hl : Entity.outgoingLease? task' = none) : Entity.outgoingLease? task = none := by
    rcases hl' : Entity.outgoingLease? task with _ | l
    · rfl
    · rw [(htakes l hl').1] at hl
      cases hl
  refine ⟨fun l hl => ?_, fun l hl => ?_, fun hl => ?_, fun hl hs => ?_⟩
  · rw [hacc, hout]
    rcases hl' : Entity.outgoingLease? task with _ | l'
    · obtain ⟨hs, hpending⟩ := hopens l hl' hl
      rw [ht.unopened hl', hcons hl' hs, hpending]
      rfl
    · obtain ⟨hkept, htaken⟩ := htakes l' hl'
      obtain rfl : l' = l := Option.some.inj (hkept.symm.trans hl)
      rw [ht.outgoing l' hl', htaken, consumptions_snoc, List.append_assoc]
  · rw [harr, hin]
    rcases hl' : Entity.incomingLease? task with _ | l'
    · obtain ⟨hs, hnone, hserial, hpending⟩ := hopensIn l hl' hl
      rw [hnew hserial, hcons hnone hs, hpending]
      rfl
    · obtain ⟨hkept, htaken⟩ := htakesIn l' hl'
      obtain rfl : l' = l := Option.some.inj (hkept.symm.trans hl)
      rw [ht.incoming l' hl', htaken, consumptions_snoc, List.append_assoc]
  · rw [hacc, ht.unopened (hnone hl)]
  · refine hcons (hnone hl) fun s htask' => ?_
    subst htask'
    obtain ⟨s', rfl⟩ := ha.serving
    exact hs s' rfl

end

/-- What holds along every run. -/
structure Tallied (h : List Transit) (e : Entity) : Prop where
  fresh : ∀ {id}, e.started ≤ id → acceptances h id = [] ∧ consumptions h id = []
  tally : ∀ {id task}, e.task? id = some task → Tally h e id task

/-- Before a task is started nothing comes in for it. -/
theorem Tallied.fresh_step (ht : Tallied h e) (ho : e.Orderly) (hr : Entity.Rule e move e' events)
    (hid : e.started ≤ id) : acceptances (h ++ [⟨e, move, events, e'⟩]) id = [] ∧
      consumptions (h ++ [⟨e, move, events, e'⟩]) id = [] := by
  obtain ⟨hacc, hcons⟩ := ht.fresh hid
  obtain ⟨hactor, hnone⟩ := hr.absent (ho.fresh hid)
  rw [acceptances_snoc, consumptions_snoc, hacc, hcons, hnone, consumption?_of_ne hactor]
  exact ⟨rfl, rfl⟩

/-- A task that takes a request over finds in its mailbox all that came in since it was leased. -/
theorem Tallied.tally_step (ht : Tallied h e) (ho : e.Orderly)
    (hnew : ∀ {lease : Lease}, e.incoming.issued ≤ lease.serial → arrivals h lease = [])
    (hr : Entity.Rule e move e' events) (htask : e'.task? id = some task) :
    Tally (h ++ [⟨e, move, events, e'⟩]) e' id task := by
  cases hr.standing ho htask with
  | kept htask hid => exact (ht.tally htask).of_ne ho hr htask hid
  | acted hbefore ha he =>
    subst he
    exact (ht.tally hbefore).step ho hnew hbefore ha (Entity.outgoing_settle _ _ _)
      (Entity.incoming_settle _ _ _)
  | started input hmove hid =>
    obtain ⟨hacc, hcons⟩ := ht.fresh_step ho hr (Nat.le_of_eq hid.symm)
    refine ⟨fun lease hl => ?_, fun lease hl => ?_, fun _ => hacc, fun _ _ => hcons⟩
    · cases input <;> cases hl
    · cases input <;> cases hl
  | @heir j service hj hmove hev he =>
    rw [he, ho.task?_handedOver hj] at htask
    split at htask
    · rename_i hid
      obtain ⟨hacc, hcons⟩ := ht.fresh_step ho hr (Nat.le_of_eq hid.symm)
      refine ⟨by rintro _ ⟨⟩, fun lease hl => ?_, fun _ => hacc, fun _ _ => hcons⟩
      obtain rfl : service.lease = lease := Option.some.inj hl
      have harr := (ht.tally hj).incoming service.lease rfl
      rw [(ht.tally hj).untaken rfl (by simp)] at harr
      rw [arrivals_snoc, harr, hcons, arrival?_self (by rw [hmove]; rfl) hj (by simp), he]
      exact List.append_nil _
    · split at htask
      · cases htask
      · rename_i hne
        refine (ht.tally htask).of_ne ho hr htask fun hactor => hne ?_
        rw [hmove] at hactor
        exact (Option.some.inj hactor).symm

/-- No message is lost between its delivery and the task that it is for. -/
theorem tallied_of_run (hrun : Run Entity.step? (.ofConfig config) h e) : Tallied h e := by
  induction hrun with
  | rest => exact ⟨fun _ => ⟨rfl, rfl⟩, by rintro _ _ ⟨⟩⟩
  | step hrun hs ih =>
    have ha := attentive_of_run hrun
    have hr := Entity.rule_of_step? hs
    exact ⟨fun hid => ih.fresh_step ha.orderly hr (Nat.le_trans hr.started_le hid),
      fun htask => ih.tally_step ha.orderly (fun hserial => (ha.unissued hserial).2) hr htask⟩

end

end ShortMessage.Control
