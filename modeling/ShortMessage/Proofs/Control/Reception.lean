import ShortMessage.Proofs.Control.Repetition
import ShortMessage.Proofs.Transaction.Insertion

/-!
# Something comes in

What comes in from the connection goes through a task that is started for it.  The input may be
refused: no transaction waits for it, it cannot be read, it is not a request, or the transport fails
while it is answered.  Some of this comes after a step that is not undone by doing nothing, such as
taking a slot.

* `Course` — how far the task has come while nothing else goes on, and what the entity looks like
  then; kept by every step of the task (`Course.step`).  So when the input is refused, nothing is left
  of it (`Ongoing.of_refused`);
* `Spares`, `Brief` — what a step of the task leaves alone while anything else goes on, and what the
  task has said (`spares_of_refused`).
-/

namespace ShortMessage.Control

open Transaction

/-- Does something come in from the connection? -/
def Input.isReceived : Input → Bool
  | .send _ => false
  | .receive _ | .receiveOctets _ => true

/-- Nothing is left of a call but that it was made, and perhaps that a lease was. -/
def Entity.afterCall (e : Entity) (leases : Nat) : Entity :=
  { e with
    incoming := { e.incoming with issued := e.incoming.issued + leases }
    started := e.started + 1 }

/-- How far a call that was made in the state `e` has come, with what it has said and returned. -/
inductive Course (e : Entity) : Entity → List Message → List Result → Prop where
  | undecided {task} : task.isUndecided = true → Course e (e.spawn task) [] []
  | replying {outcome m} : Course e (e.spawn (.receiving (.replying outcome))) [m] []
  | accepting {i service incoming m} :
      e.incoming.leaseAt? i () = some (service.lease, incoming) →
      Course e (({ e with incoming } : Entity).spawn (.receiving (.accepting service))) [m] []
  | withdrawing {i lease failure incoming m} : e.incoming.leaseAt? i () = some (lease, incoming) →
      Course e (({ e with incoming } : Entity).spawn (.receiving (.withdrawing lease failure))) [m] []
  | refused (leases : Nat) {failure ms} : leases ≤ 1 → ms.length ≤ 1 →
      Course e (e.afterCall leases) ms [.received (.error failure)]
  /-- The input was not refused. -/
  | other {cur ms rs} : cur.task? e.started = none → (∀ failure, .received (.error failure) ∉ rs) →
      Course e cur ms rs

/-- A call that was made in the state `e` has come to the state `cur`.  What others see of it belongs
to its task, and the application is not asked. -/
structure Ongoing (e : Entity) (c : List Transit) (cur : Entity) : Prop where
  course : Course e cur (emissions c e.started) (results c e.started)
  uncalled : ∀ tr ∈ c, ∀ ev ∈ tr.events, ev.task = e.started ∧ ∀ call, ev ≠ .called e.started call

/-- A step of a task starts no other one and leaves all others alone.  It touches no transaction,
unless the task takes one that was idle, or gives back the one that it has. -/
structure Spares (id : TaskId) (tr : Transit) : Prop where
  started : tr.after.started = tr.before.started
  outgoing : tr.after.outgoing = tr.before.outgoing
  others : ∀ j, j ≠ id → tr.after.task? j = tr.before.task? j
  incoming : tr.after.incoming = tr.before.incoming ∨
    (∃ i lease, tr.before.incoming.leaseAt? i () = some (lease, tr.after.incoming) ∧
      tr.after.leaseIn? id = some lease) ∨
    ∃ lease, tr.before.leaseIn? id = some lease ∧
      tr.after.incoming = tr.before.incoming.drop lease

section

variable {config : Config} {h c : List Transit} {tr : Transit} {e e' cur next : Entity} {id : TaskId}
  {move : Move Input} {events : List (Event Message Result)} {task task' : Task} {input : Input}
  {ms : List Message} {rs : List Result} {outgoing incoming : Table Message Unit}

/-! ## A task that was just added -/

namespace Entity

@[simp] theorem outgoing_spawn (e : Entity) (task : Task) : (e.spawn task).outgoing = e.outgoing := rfl

@[simp] theorem incoming_spawn (e : Entity) (task : Task) : (e.spawn task).incoming = e.incoming := rfl

theorem ne_started (hf : e.task? e.started = none) {x : TaskId × Task} (hx : x ∈ e.tasks) :
    x.1 ≠ e.started := by
  have hne := List.lookup_eq_none_iff.1 (show e.tasks.lookup e.started = none from hf) x hx
  exact fun h => by simp [h] at hne

theorem task?_spawn_self (hf : e.task? e.started = none) (task : Task) :
    (e.spawn task).task? e.started = some task := by
  simp [task?_spawn, hf]

theorem settle_spawn (hf : e.task? e.started = none) (task task' : Task)
    (outgoing incoming : Table Message Unit) :
    (e.spawn task).settle e.started (some task') outgoing incoming =
      ({ e with outgoing, incoming } : Entity).spawn task' := by
  have hold : e.tasks.map (fun t => if t.1 = e.started then (e.started, task') else t) = e.tasks :=
    (List.map_congr_left fun x hx => if_neg (ne_started hf hx)).trans (List.map_id _)
  simp [settle, put, spawn, hold]

theorem settle_spawn_none (hf : e.task? e.started = none) (task : Task)
    (outgoing incoming : Table Message Unit) :
    (e.spawn task).settle e.started none outgoing incoming =
      { e with outgoing, incoming, started := e.started + 1 } := by
  have hold : e.tasks.filter (·.1 ≠ e.started) = e.tasks :=
    List.filter_eq_self.2 fun x hx => by simpa using ne_started hf hx
  simp only [settle, remove, spawn, List.filter_append, hold]
  simp

end Entity

/-! ## The course of a call -/

theorem Course.of_gone (e0 : Entity) {task' : Option Task} (hf : e0.task? e0.started = none)
    (hstarted : e0.started = e.started) (hgone : task' = none)
    (hrs : ∀ failure, .received (.error failure) ∉ rs) :
    Course e ((e0.spawn task).settle e.started task' outgoing incoming) ms rs := by
  subst hgone
  refine .other ?_ hrs
  rw [← hstarted, Entity.task?_settle _ _ _ (Entity.task?_spawn_self hf task), if_pos rfl]

/-- The input is refused while the tables are as they were. -/
theorem Course.of_refused {failure : Failure} (hf : e.task? e.started = none) (hms : ms.length ≤ 1) :
    Course e ((e.spawn task).settle e.started none e.outgoing e.incoming) ms
      [.received (.error failure)] := by
  rw [Entity.settle_spawn_none hf]
  exact .refused 0 (Nat.zero_le _) hms

theorem Course.of_undecided (hf : e.task? e.started = none) (hundecided : task.isUndecided = true)
    {task' : Option Task}
    (ha : Entity.Act (e.spawn task) e.started move task task' outgoing incoming events) :
    Course e ((e.spawn task).settle e.started task' outgoing incoming)
      (events.filterMap (·.emittedBy? e.started)) (events.filterMap (·.returnedBy? e.started)) ∧
      ∀ call, .called e.started call ∉ events := by
  cases ha with
  | read | lookedAt =>
    refine ⟨?_, by simp⟩
    rw [Entity.settle_spawn hf]
    exact .undecided rfl
  | unknown | stray | passedOver | rejected | tooLate =>
    refine ⟨?_, by simp⟩
    rw [Entity.settle_spawn hf]
    simpa [Event.emittedBy?, Event.returnedBy?] using Course.replying
  | unknownStray | unread | strayError =>
    refine ⟨?_, by simp⟩
    simpa [Event.emittedBy?, Event.returnedBy?] using Course.of_refused hf (Nat.zero_le _)
  | posted | postedIncoming => exact ⟨.of_gone e hf rfl rfl (by simp [Event.returnedBy?]), by simp⟩
  | accepted hlease =>
    refine ⟨?_, by simp⟩
    rw [Entity.settle_spawn hf]
    simpa [Event.emittedBy?, Event.returnedBy?] using Course.accepting hlease
  | aborted => exact ⟨.of_gone e hf rfl rfl (by simp), by simp⟩
  | _ => cases hundecided

theorem Course.of_replying {outcome : Except Failure Unit} {m : Message} {task' : Option Task}
    (hf : e.task? e.started = none)
    (ha : Entity.Act (e.spawn (.receiving (.replying outcome))) e.started move
      (.receiving (.replying outcome)) task' outgoing incoming events) :
    Course e ((e.spawn (.receiving (.replying outcome))).settle e.started task' outgoing incoming)
      ([m] ++ events.filterMap (·.emittedBy? e.started))
      (events.filterMap (·.returnedBy? e.started)) ∧ ∀ call, .called e.started call ∉ events := by
  cases ha with
  | replyDone =>
    refine ⟨?_, by simp⟩
    rcases outcome with failure | _
    · simpa [Event.emittedBy?, Event.returnedBy?] using Course.of_refused hf (Nat.le_refl _)
    · exact .of_gone e hf rfl rfl (by simp [Event.returnedBy?])
  | replyFailed =>
    refine ⟨?_, by simp⟩
    simpa [Event.emittedBy?, Event.returnedBy?] using Course.of_refused hf (Nat.le_refl _)
  | aborted => exact ⟨.of_gone e hf rfl rfl (by simp), by simp⟩

/-- The transport fails while the request is acknowledged. -/
theorem Course.of_accepting {service : Service} {t : Table Message Unit} {i : Nat} {m : Message}
    {task' : Option Task} (hf : e.task? e.started = none)
    (hlease : e.incoming.leaseAt? i () = some (service.lease, t))
    (ha : Entity.Act (({ e with incoming := t } : Entity).spawn (.receiving (.accepting service)))
      e.started move (.receiving (.accepting service)) task' outgoing incoming events) :
    Course e ((({ e with incoming := t } : Entity).spawn (.receiving (.accepting service))).settle
      e.started task' outgoing incoming) ([m] ++ events.filterMap (·.emittedBy? e.started))
      (events.filterMap (·.returnedBy? e.started)) ∧ ∀ call, .called e.started call ∉ events := by
  have hf0 : ({ e with incoming := t } : Entity).task? e.started = none := hf
  cases ha with
  | unaccepted =>
    refine ⟨?_, by simp⟩
    rw [Entity.settle_spawn (e := { e with incoming := t }) hf0]
    simpa [Event.emittedBy?, Event.returnedBy?] using Course.withdrawing hlease
  | aborted => exact ⟨.of_gone { e with incoming := t } hf0 rfl rfl (by simp), by simp⟩

/-- The slot is given back, and only its lease is spent. -/
theorem Course.of_withdrawing {lease : Lease} {failure : Failure} {t : Table Message Unit} {i : Nat}
    {m : Message} {task' : Option Task} (ho : e.Orderly)
    (hlease : e.incoming.leaseAt? i () = some (lease, t))
    (ha : Entity.Act (({ e with incoming := t } : Entity).spawn
      (.receiving (.withdrawing lease failure))) e.started move
      (.receiving (.withdrawing lease failure)) task' outgoing incoming events) :
    Course e ((({ e with incoming := t } : Entity).spawn
      (.receiving (.withdrawing lease failure))).settle e.started task' outgoing incoming)
      ([m] ++ events.filterMap (·.emittedBy? e.started))
      (events.filterMap (·.returnedBy? e.started)) ∧ ∀ call, .called e.started call ∉ events := by
  have hf0 : ({ e with incoming := t } : Entity).task? e.started = none := ho.fresh (Nat.le_refl _)
  cases ha with
  | withdrawn =>
    refine ⟨?_, by simp⟩
    rw [Entity.settle_spawn_none (e := { e with incoming := t }) hf0]
    simp only [Entity.incoming_spawn, Entity.outgoing_spawn,
      ho.incoming.sound.drop_of_leaseAt? hlease]
    change Course e (e.afterCall 1) _ _
    simpa [Event.emittedBy?, Event.returnedBy?] using
      Course.refused 1 (Nat.le_refl _) (Nat.le_refl [m].length)
  | aborted => exact ⟨.of_gone { e with incoming := t } hf0 rfl rfl (by simp), by simp⟩

/-- A step of a task is one of its acts, or hands the request over that it has acknowledged. -/
theorem Entity.Rule.self (hr : Entity.Rule e move e' events) (hid : actor? move = some id)
    (ht : e.task? id = some task) :
    (∃ task' outgoing incoming, Entity.Act e id move task task' outgoing incoming events ∧
      e' = e.settle id task' outgoing incoming) ∨
    ∃ service, task = .receiving (.accepting service) ∧
      events = [.returned id (.received (.ok ()))] ∧ e'.task? id = none := by
  cases hr with
  | start input | elapsed duration => cases hid
  | act ht' ha =>
    obtain rfl := Option.some.inj (ha.actor.symm.trans hid)
    rw [ht] at ht'
    cases ht'
    exact .inl ⟨_, _, _, ha, rfl⟩
  | handedOver ht' =>
    obtain rfl := Option.some.inj hid
    rw [ht] at ht'
    exact .inr ⟨_, Option.some.inj ht', rfl, by rw [Entity.task?_remove, if_pos rfl]⟩

theorem Course.step (hc : Course e cur ms rs) (ho : e.Orderly)
    (hr : Entity.Rule cur move next events) (hid : actor? move = some e.started) :
    Course e next (ms ++ events.filterMap (·.emittedBy? e.started))
      (rs ++ events.filterMap (·.returnedBy? e.started)) ∧
      ∀ call, .called e.started call ∉ events := by
  have hf : e.task? e.started = none := ho.fresh (Nat.le_refl _)
  cases hc with
  | undecided hundecided =>
    obtain ⟨_, _, _, ha, rfl⟩ | ⟨_, rfl, -⟩ := hr.self hid (Entity.task?_spawn_self hf _)
    · exact Course.of_undecided hf hundecided ha
    · cases hundecided
  | replying =>
    obtain ⟨_, _, _, ha, rfl⟩ | ⟨_, hk, -⟩ := hr.self hid (Entity.task?_spawn_self hf _)
    · exact Course.of_replying hf ha
    · cases hk
  | @accepting i service t m hlease =>
    have hf0 : ({ e with incoming := t } : Entity).task? e.started = none := hf
    obtain ⟨_, _, _, ha, rfl⟩ | ⟨_, -, rfl, hgone⟩ := hr.self hid (Entity.task?_spawn_self hf0 _)
    · exact Course.of_accepting hf hlease ha
    · exact ⟨.other hgone (by simp [Event.returnedBy?]), by simp⟩
  | @withdrawing i lease failure t m hlease =>
    have hf0 : ({ e with incoming := t } : Entity).task? e.started = none := hf
    obtain ⟨_, _, _, ha, rfl⟩ | ⟨_, hk, -⟩ := hr.self hid (Entity.task?_spawn_self hf0 _)
    · exact Course.of_withdrawing ho hlease ha
    · cases hk
  | refused leases =>
    exact absurd hid (hr.absent (show (e.afterCall leases).task? e.started = none from hf)).1
  | other hgone => exact absurd hid (hr.absent hgone).1

theorem Ongoing.step (hu : Ongoing e c cur) (ho : e.Orderly)
    (hr : Entity.Rule cur move next events) (hid : actor? move = some e.started) :
    Ongoing e (c ++ [⟨cur, move, events, next⟩]) next := by
  obtain ⟨hcourse, hsilent⟩ := hu.course.step ho hr hid
  refine ⟨by rwa [emissions_snoc, results_snoc], fun tr htr ev hev => ?_⟩
  rcases List.mem_append.1 htr with htr | htr
  · exact hu.uncalled tr htr ev hev
  · obtain rfl := List.mem_singleton.1 htr
    refine ⟨Option.some.inj ((hr.task_of_mem hev).symm.trans hid), ?_⟩
    rintro call rfl
    exact hsilent call hev

theorem ongoing_of_call (ho : e.Orderly) (hc : Call Entity.step? Entity.started e input c e')
    (hinput : input.isReceived = true) : Ongoing e c e' := by
  obtain ⟨e1, events, rest, rfl, hs, hrest, halone⟩ := hc.start
  cases hs
  have hundecided : (Entity.taskFor input).isUndecided = true := by
    cases input with
    | send m => cases hinput
    | receive m => rfl
    | receiveOctets s => rfl
  have hstart : Ongoing e [] (e.spawn (Entity.taskFor input)) :=
    ⟨.undecided hundecided, by rintro _ ⟨⟩⟩
  have hrest' : Ongoing e rest e' := hrest.invariant halone hstart fun hu hstep hid =>
    hu.step ho (Entity.rule_of_step? hstep) hid
  refine ⟨hrest'.course, fun tr htr => ?_⟩
  rcases List.mem_cons.1 htr with rfl | htr
  · rintro ev ⟨⟩
  · exact hrest'.uncalled tr htr

/-- When its input is refused, a call leaves nothing behind, and has said one thing at most. -/
theorem Ongoing.of_refused {failure : Failure} (hu : Ongoing e c e')
    (hfailure : .received (.error failure) ∈ results c e.started) :
    (∃ leases, leases ≤ 1 ∧ e' = e.afterCall leases) ∧ (emissions c e.started).length ≤ 1 := by
  have hcourse := hu.course
  generalize hms : emissions c e.started = ms at hcourse ⊢
  generalize hrs : results c e.started = rs at hcourse hfailure
  cases hcourse with
  | refused leases hleases hlen => exact ⟨⟨leases, hleases, rfl⟩, hlen⟩
  | other _ hno => exact absurd hfailure (hno failure)
  | _ => cases hfailure

/-! ## Refused input among other steps -/

theorem closed_not_receiving : Entity.Closed fun task => ∀ r, task ≠ .receiving r := by
  intro e id move task next outgoing incoming events hnot ha
  generalize hk : some next = task' at ha
  cases ha with
  | delivered htake hf | took htake hf | tookLate htake hf => cases hf <;> cases hk <;> rintro r ⟨⟩
  | _ => first | (cases hk; rintro r ⟨⟩; done) | exact absurd rfl (hnot _) | cases hk

/-- Unless the input is accepted, the task touches no transaction but its own. -/
theorem spares_of_act {r : Receiving} {task' : Option Task} (ht : e.task? id = some (.receiving r))
    (ha : Entity.Act e id move (.receiving r) task' outgoing incoming events)
    (hok : .returned id (.received (.ok ())) ∉ events) :
    Spares id ⟨e, move, events, e.settle id task' outgoing incoming⟩ := by
  have hothers (outgoing incoming : Table Message Unit) (j : TaskId) (hj : j ≠ id) :
      (e.settle id task' outgoing incoming).task? j = e.task? j := task?_settle_of_ne hj
  cases ha with
  | posted | postedIncoming => simp at hok
  | accepted hlease =>
    refine ⟨Entity.started_settle _ _ _, Entity.outgoing_settle _ _ _, hothers _ _, .inr (.inl ?_)⟩
    refine ⟨_, _, by rw [Entity.incoming_settle]; exact hlease, ?_⟩
    rw [Entity.leaseIn?_settle ht, if_pos rfl]
    rfl
  | withdrawn =>
    refine ⟨Entity.started_settle _ _ _, Entity.outgoing_settle _ _ _, hothers _ _, .inr (.inr ?_)⟩
    exact ⟨_, Entity.leaseIn?_eq ht, Entity.incoming_settle _ _ _⟩
  | aborted =>
    have hl := Entity.leaseIn?_eq ht
    rcases hlease : Entity.incomingLease? (.receiving r) with _ | lease
    · exact ⟨Entity.started_settle _ _ _, rfl, hothers _ _, .inl rfl⟩
    · rw [hlease] at hl
      exact ⟨Entity.started_settle _ _ _, rfl, hothers _ _, .inr (.inr ⟨lease, hl, rfl⟩)⟩
  | _ =>
    exact ⟨Entity.started_settle _ _ _, Entity.outgoing_settle _ _ _, hothers _ _,
      .inl (Entity.incoming_settle _ _ _)⟩

theorem uncalled_of_receiving {r : Receiving} {task' : Option Task}
    (ha : Entity.Act e id move (.receiving r) task' outgoing incoming events)
    (call : ShortMessage.Service.Call) : .called id call ∉ events := by
  cases ha <;> simp

/-- A task for something that comes in says one thing at most, and nothing before it has looked. -/
def Brief (h : List Transit) (id : TaskId) : Receiving → Prop
  | .octets _ | .arrived _ | .opening _ _ => emissions h id = []
  | _ => (emissions h id).length ≤ 1

theorem Brief.length_le {r : Receiving} (hb : Brief h id r) : (emissions h id).length ≤ 1 := by
  unfold Brief at hb
  split at hb
  all_goals first | exact hb | simp [hb]

theorem Brief.step {r r' : Receiving} (hb : Brief h id r)
    (ha : Entity.Act e id move (.receiving r) (some (.receiving r')) outgoing incoming events) :
    Brief (h ++ [⟨e, move, events, e'⟩]) id r' := by
  generalize hk : some (Task.receiving r') = task' at ha
  cases ha with
  | read | lookedAt =>
    cases hk
    have hnone : emissions h id = [] := hb
    simp [Brief, emissions_snoc, hnone]
  | unknown | stray | passedOver | rejected | accepted | tooLate =>
    cases hk
    have hnone : emissions h id = [] := hb
    simp [Brief, emissions_snoc, hnone, Event.emittedBy?]
  | unaccepted =>
    cases hk
    have hone : (emissions h id).length ≤ 1 := hb
    simpa [Brief, emissions_snoc] using hone
  | _ => cases hk

theorem Entity.Act.receiving {r : Receiving}
    (ha : Entity.Act e id move task (some (.receiving r)) outgoing incoming events) :
    ∃ r0, task = .receiving r0 := by
  by_contra hnot
  exact closed_not_receiving (fun r0 hr0 => hnot ⟨r0, hr0⟩) ha r rfl

theorem brief_of_run (hrun : Run Entity.step? (.ofConfig config) h e) {r : Receiving}
    (ht : e.task? id = some (.receiving r)) : Brief h id r := by
  induction hrun generalizing r with
  | rest => cases ht
  | @step h t u move events hfront hs ih =>
    have hv := vocal_of_run hfront
    have hr := Entity.rule_of_step? hs
    generalize hk : Task.receiving r = task at ht
    cases hr.standing hv.orderly ht with
    | kept ht hid =>
      subst hk
      have hsame : emissions (h ++ [⟨t, move, events, u⟩]) id = emissions h id := by
        rw [emissions_snoc, hr.emits_nothing hid, List.append_nil]
      unfold Brief
      rw [hsame]
      exact ih ht
    | acted ht ha =>
      subst hk
      obtain ⟨r0, rfl⟩ := ha.receiving
      exact (ih ht).step ha
    | started input hmove hid =>
      have hnone : emissions (h ++ [⟨t, move, events, u⟩]) id = [] := by
        rw [emissions_snoc, hv.fresh (Nat.le_of_eq hid.symm), hr.emits_nothing (by simp [hmove, actor?])]
        rfl
      cases input with
      | send m => cases hk
      | receive m | receiveOctets s =>
        cases hk
        exact hnone
    | heir => cases hk

theorem spares_of_rule {r : Receiving} (hr : Entity.Rule e move e' events)
    (hid : actor? move = some id) (ht : e.task? id = some (.receiving r))
    (hok : .returned id (.received (.ok ())) ∉ events) :
    Spares id ⟨e, move, events, e'⟩ ∧ ∀ call, .called id call ∉ events := by
  obtain ⟨task', outgoing, incoming, ha, rfl⟩ | ⟨_, -, rfl, -⟩ := hr.self hid ht
  · exact ⟨spares_of_act ht ha hok, uncalled_of_receiving ha⟩
  · simp at hok

/-- What comes in is reported on by the task that was started for it. -/
theorem Entity.Rule.receiving_of_returned {outcome : Except Failure Unit}
    (hr : Entity.Rule e move e' events) (hret : .returned id (.received outcome) ∈ events) :
    (∃ r, e.task? id = some (.receiving r)) ∧ events = [.returned id (.received outcome)] := by
  cases hr with
  | start input | elapsed duration => cases hret
  | handedOver ht =>
    cases List.mem_singleton.1 hret
    exact ⟨⟨_, ht⟩, rfl⟩
  | act ht ha =>
    obtain rfl : id = _ := ha.task_of_mem _ hret
    cases ha with
    | delivered htake hf | took htake hf | tookLate htake hf => cases hf <;> simp [saying] at hret
    | _ =>
      first
      | (cases List.mem_singleton.1 hret; exact ⟨⟨_, ht⟩, rfl⟩)
      | simp at hret

theorem past_of_gone (ho : e.Orderly) (hr : Entity.Rule e move e' events)
    {result : Result} (hret : .returned id result ∈ events) :
    Entity.Past (fun _ => False) e' id := by
  obtain ⟨task, ht⟩ := hr.exists_task (hr.task_of_mem hret)
  refine ⟨Nat.lt_of_lt_of_le (ho.lt_started ht) hr.started_le, fun task' ht' => ?_⟩
  rw [hr.gone hret] at ht'
  cases ht'

theorem gone_of_run (hp : Entity.Past (fun _ => False) e id) (ho : e.Orderly)
    (hrun : Run Entity.step? e h e') : e'.task? id = none := by
  have hpast := hp.of_run (by rintro _ _ _ _ _ _ _ _ ⟨⟩) ho hrun
  exact Option.eq_none_iff_forall_ne_some.2 hpast.2

/-- Before a task reports that its input was refused it spares all others. -/
theorem spares_of_receiving {r : Receiving} (hrun : Run Entity.step? (.ofConfig config) h e)
    (ht : e.task? id = some (.receiving r)) (htr : tr ∈ h) (hid : actor? tr.move = some id) :
    Spares id tr ∧ ∀ call, .called id call ∉ tr.events := by
  obtain ⟨front, back, rfl⟩ := List.append_of_mem htr
  obtain ⟨hfront, hs, hback⟩ := hrun.split
  have ho := (attentive_of_run hfront).orderly
  have hr := Entity.rule_of_step? hs
  obtain ⟨task, htask⟩ := hr.exists_task hid
  obtain ⟨r0, rfl⟩ : ∃ r0, task = .receiving r0 := by
    by_contra hnot
    have hpast : Entity.Past (fun task => ∀ r, task ≠ .receiving r) tr.before id :=
      ⟨ho.lt_started htask, fun task' ht' r hr' => hnot ⟨r, by rw [htask] at ht'; cases ht'; exact hr'⟩⟩
    have hthen := (hpast.step closed_not_receiving ho hr).of_run closed_not_receiving (ho.step hr) hback
    exact hthen.2 _ ht r rfl
  refine spares_of_rule hr hid htask fun hret => ?_
  have hgone := gone_of_run (past_of_gone ho hr hret) (ho.step hr) hback
  rw [ht] at hgone
  cases hgone

/-- Whatever else goes on, input that is refused is answered with one message at most, the
application is not asked, and no other task and no other transaction is touched. -/
theorem spares_of_refused {failure : Failure} (hrun : Run Entity.step? (.ofConfig config) h e)
    (hres : .received (.error failure) ∈ results h id) :
    e.task? id = none ∧ (emissions h id).length ≤ 1 ∧
      ∀ tr ∈ h, (∀ call, .called id call ∉ tr.events) ∧
        (actor? tr.move = some id → Spares id tr) := by
  obtain ⟨last, hlast, hret⟩ := mem_results.1 hres
  obtain ⟨front, back, rfl⟩ := List.append_of_mem hlast
  obtain ⟨hfront, hs, hback⟩ := hrun.split
  have ho := (attentive_of_run hfront).orderly
  have hr := Entity.rule_of_step? hs
  obtain ⟨⟨r, ht⟩, hevents⟩ := hr.receiving_of_returned hret
  have hid := hr.task_of_mem hret
  have hgone := past_of_gone ho hr hret
  have hnone : last.after.task? id = none := hr.gone hret
  refine ⟨gone_of_run hgone (ho.step hr) hback, ?_, ?_⟩
  · have hbrief := (brief_of_run hfront ht).length_le
    rw [emissions_append, emissions_cons, hevents,
      Entity.silent_of_gone hback (ho.step hr) hnone hgone.1]
    simpa [Event.emittedBy?] using hbrief
  · have hself {x : Transit} (hx : x ∈ front ++ last :: back) (hactor : actor? x.move = some id) :
        Spares id x ∧ ∀ call, .called id call ∉ x.events := by
      rcases List.mem_append.1 hx with hx | hx
      · exact spares_of_receiving hfront ht hx hactor
      · rcases List.mem_cons.1 hx with rfl | hx
        · exact spares_of_rule hr hid ht (by rw [hevents]; simp)
        · obtain ⟨middle, rest, rfl⟩ := List.append_of_mem hx
          obtain ⟨hmiddle, hs', -⟩ := hback.split
          obtain ⟨task, htask⟩ := (Entity.rule_of_step? hs').exists_task hactor
          rw [gone_of_run hgone (ho.step hr) hmiddle] at htask
          cases htask
    refine fun tr htr => ⟨fun call hcall => ?_, fun hactor => (hself htr hactor).1⟩
    obtain ⟨middle, rest, heq⟩ := List.append_of_mem htr
    rw [heq] at hrun
    obtain ⟨-, hs', -⟩ := hrun.split
    exact (hself htr ((Entity.rule_of_step? hs').task_of_mem hcall)).2 call hcall

end

end ShortMessage.Control
