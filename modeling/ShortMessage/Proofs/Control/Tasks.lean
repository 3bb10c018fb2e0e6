import ShortMessage.Proofs.Control.History

/-!
# Which tasks a step is about

* `Entity.Rule.standing` — where a task stands after a step says how it has come there: others left
  it alone, it took the step, it was started, or it goes on where the receiver of a request stopped;
* `Entity.Rule.task?_of_ne`, `Entity.Rule.absent` — a task that was started is left alone by the
  others, and one that is not there has no part in a step;
* `Entity.Rule.sent` — what sending comes to was decided in an earlier step, unless no transaction
  is free;
* `Entity.Past.of_run` — phases that a task does not leave by its own steps are not left in any run.
-/

namespace ShortMessage.Control

open Transaction

/-! ## Which tasks a step is about -/

namespace Entity

variable {e e' : Entity} {move : Move Input} {events : List (Event Message Result)}
  {id : TaskId} {task : Task} {task' : Option Task} {outgoing incoming : Table Message Unit}

theorem Rule.exists_task (hr : Rule e move e' events) (ha : actor? move = some id) :
    ∃ task, e.task? id = some task := by
  cases hr with
  | start input => cases ha
  | act ht hact =>
    rw [hact.actor] at ha
    cases ha
    exact ⟨_, ht⟩
  | handedOver ht => cases ha; exact ⟨_, ht⟩
  | elapsed duration => cases ha

/-- A task that is not there has no part in a step. -/
theorem Rule.absent (hr : Rule e move e' events) (hn : e.task? id = none) :
    actor? move ≠ some id ∧ acceptance? id ⟨e, move, events, e'⟩ = none := by
  refine ⟨fun ha => ?_, ?_⟩
  · obtain ⟨task, ht⟩ := hr.exists_task ha
    rw [hn] at ht
    cases ht
  · rcases ha : acceptance? id ⟨e, move, events, e'⟩ with _ | x
    · rfl
    · obtain ⟨_, _, -, -, -, -, hholds⟩ := acceptance?_eq_some ha
      simp [holds, leaseOut?, hn] at hholds

theorem Rule.started_le (hr : Rule e move e' events) : e.started ≤ e'.started := by
  cases hr with
  | start input => exact Nat.le_succ _
  | act ht hact => simp
  | handedOver ht => exact Nat.le_succ _
  | elapsed duration => exact Nat.le_refl _

theorem Rule.input?_eq (hr : Rule e move e' events) (h : List Transit) (id : TaskId) :
    (∃ input, move = .start input ∧ e.started = id ∧ e'.started = id + 1) ∨
      input? Entity.started (h ++ [⟨e, move, events, e'⟩]) id = input? Entity.started h id := by
  cases hr with
  | start input =>
    by_cases hid : e.started = id
    · exact .inl ⟨input, rfl, hid, hid ▸ rfl⟩
    · exact .inr (input?_snoc_of_ne fun _ _ => hid)
  | act ht hact =>
    refine .inr (input?_snoc_of_ne ?_)
    rintro input rfl
    cases hact
  | handedOver ht => exact .inr (input?_snoc_of_ne (by rintro _ ⟨⟩))
  | elapsed duration => exact .inr (input?_snoc_of_ne (by rintro _ ⟨⟩))

theorem Act.sending {phase' : Sending}
    (ha : Act e id move task (some (.sending phase')) outgoing incoming events) :
    ∃ phase, task = .sending phase := by
  generalize hk : some (Task.sending phase') = task' at ha
  cases ha <;> first | exact ⟨_, rfl⟩ | cases hk

/-- A message to send goes on by a step of its own. -/
theorem Rule.sending_self {phase' : Sending} (hr : Rule e move e' events)
    (ha : actor? move = some id) (ht' : e'.task? id = some (.sending phase')) :
    ∃ phase outgoing incoming, e.task? id = some (.sending phase) ∧
      Act e id move (.sending phase) (some (.sending phase')) outgoing incoming events ∧
      e' = e.settle id (some (.sending phase')) outgoing incoming := by
  cases hr with
  | start input | elapsed duration => cases ha
  | act ht hact =>
    rw [hact.actor] at ha
    cases ha
    rw [task?_settle _ _ _ ht, if_pos rfl] at ht'
    subst ht'
    obtain ⟨phase, rfl⟩ := hact.sending
    exact ⟨phase, _, _, ht, hact, rfl⟩
  | handedOver ht =>
    cases ha
    rw [task?_remove, if_pos rfl] at ht'
    cases ht'

/-- A message to send goes on, or comes to something. -/
theorem Act.goes_on {phase : Sending}
    (ha : Act e id move (.sending phase) task' outgoing incoming events) (hmove : move ≠ .abort id) :
    (∃ phase', task' = some (.sending phase')) ∨ ∃ outcome, .returned id (.sent outcome) ∈ events := by
  generalize hk : Task.sending phase = task at ha
  cases ha with
  | aborted => exact absurd rfl hmove
  | congested | closed => exact .inr ⟨_, List.mem_singleton.2 rfl⟩
  | _ => first | exact .inl ⟨_, rfl⟩ | cases hk

/-- How a task has come to where it stands after a step. -/
inductive Standing (e : Entity) (move : Move Input) (e' : Entity)
    (events : List (Event Message Result)) (id : TaskId) : Task → Prop where
  /-- Others leave it alone. -/
  | kept {task : Task} : e.task? id = some task → actor? move ≠ some id →
      Standing e move e' events id task
  | acted {task task' : Task} {outgoing incoming : Table Message Unit} : e.task? id = some task →
      Act e id move task (some task') outgoing incoming events →
      e' = e.settle id (some task') outgoing incoming → Standing e move e' events id task'
  | started (input : Input) : move = .start input → id = e.started →
      Standing e move e' events id (taskFor input)
  /-- It goes on where the receiver of a request stopped. -/
  | heir {j service} : e.task? j = some (.receiving (.accepting service)) → move = .sent j (.ok ()) →
      events = [.returned j (.received (.ok ()))] →
      e' = (e.spawn (.serving (.accepted service))).remove j →
      Standing e move e' events id (.serving (.accepted service))

theorem Rule.standing (hr : Rule e move e' events) (ho : e.Orderly)
    (ht' : e'.task? id = some task) : Standing e move e' events id task := by
  cases hr with
  | start input =>
    rw [ho.task?_spawn] at ht'
    split at ht'
    · cases ht'
      exact .started input rfl (by assumption)
    · exact .kept ht' (by rintro ⟨⟩)
  | act ht ha =>
    rw [task?_settle _ _ _ ht] at ht'
    split at ht'
    · rename_i hj
      subst hj
      subst ht'
      exact .acted ht ha rfl
    · rename_i hne
      exact .kept ht' fun hactor => hne (Option.some.inj (hactor.symm.trans ha.actor))
  | handedOver ht =>
    rw [ho.task?_handedOver ht] at ht'
    split at ht'
    · cases ht'
      exact .heir ht rfl rfl rfl
    · split at ht'
      · cases ht'
      · rename_i hne
        exact .kept ht' fun hactor => hne (Option.some.inj hactor).symm
  | elapsed duration => exact .kept ht' (by rintro ⟨⟩)

/-- A message to send that others leave alone stays, unless it has just been handed in. -/
theorem Rule.sending_of_ne {phase : Sending} (hr : Rule e move e' events) (ho : e.Orderly)
    (hid : actor? move ≠ some id) (ht' : e'.task? id = some (.sending phase)) :
    e.task? id = some (.sending phase) ∨
      ∃ m, move = .start (.send m) ∧ e.started = id ∧ phase = .opening m := by
  generalize hk : Task.sending phase = task at ht'
  cases hr.standing ho ht' with
  | kept ht => exact .inl (hk ▸ ht)
  | acted _ ha => exact absurd ha.actor hid
  | started input hmove hnew =>
    cases input with
    | send m =>
      cases hk
      exact .inr ⟨m, hmove, hnew.symm, rfl⟩
    | receive | receiveOctets => cases hk
  | heir => cases hk

/-- No task goes back to where it has no transaction. -/
theorem Rule.not_opening {m : Relay.Message} (hr : Rule e move e' events)
    (ha : actor? move = some id) : e'.task? id ≠ some (.sending (.opening m)) := by
  cases hr with
  | start input | elapsed duration => cases ha
  | act ht hact =>
    rw [hact.actor] at ha
    cases ha
    rw [task?_settle _ _ _ ht, if_pos rfl]
    cases hact with
    | delivered _ hf | took _ hf | tookLate _ hf => cases hf <;> rintro ⟨⟩
    | _ => rintro ⟨⟩
  | handedOver ht =>
    cases ha
    rw [task?_remove, if_pos rfl]
    rintro ⟨⟩

/-- A task that has been started is left alone by the others. -/
theorem Rule.task?_of_ne (hr : Rule e move e' events) (ho : e.Orderly) (hid : actor? move ≠ some id)
    (hlt : id < e.started) : e'.task? id = e.task? id := by
  have hne : id ≠ e.started := Nat.ne_of_lt hlt
  cases hr with
  | start input => rw [ho.task?_spawn, if_neg hne]
  | act ht ha =>
    rw [task?_settle _ _ _ ht, if_neg]
    rintro rfl
    exact hid ha.actor
  | handedOver ht =>
    rw [ho.task?_handedOver ht, if_neg hne, if_neg]
    rintro rfl
    exact hid rfl
  | elapsed duration => rfl

/-- A task that has ended stays away. -/
theorem Rule.absent_after (hr : Rule e move e' events) (ho : e.Orderly) (hn : e.task? id = none)
    (hlt : id < e.started) : e'.task? id = none :=
  (hr.task?_of_ne ho (hr.absent hn).1 hlt).trans hn

theorem Act.gone {result : Result} (ha : Act e id move task task' outgoing incoming events)
    (hret : .returned id result ∈ events) : task' = none := by
  cases ha with
  | delivered ht hf | took ht hf | tookLate ht hf => cases hf <;> simp [saying] at hret
  | _ => first | rfl | simp at hret

theorem Rule.gone {result : Result} (hr : Rule e move e' events)
    (hret : .returned id result ∈ events) : e'.task? id = none := by
  cases hr with
  | start input => cases hret
  | act ht ha =>
    obtain rfl : id = _ := ha.task_of_mem _ hret
    rw [task?_settle _ _ _ ht, if_pos rfl, ha.gone hret]
  | handedOver ht =>
    cases List.mem_singleton.1 hret
    rw [task?_remove, if_pos rfl]
  | elapsed duration => cases hret

/-- What sending comes to has been decided before, unless no transaction is free. -/
theorem Rule.sent {outcome : Outcome} (hr : Rule e move e' events)
    (hret : .returned id (.sent outcome) ∈ events) :
    (∃ m, e.task? id = some (.sending (.opening m)) ∧ e.outgoing.lease? () = none ∧
        outcome = .error (.relayCause .congestion) ∧ move = .run id ∧
        events.filterMap (·.emittedBy? id) = []) ∨
      ∃ lease, e.task? id = some (.sending (.closing lease outcome)) ∧ actor? move = some id ∧
        events.filterMap (·.emittedBy? id) = [] := by
  cases hr with
  | start input => cases hret
  | act ht ha =>
    obtain rfl : id = _ := ha.task_of_mem _ hret
    cases ha with
    | delivered ht hf | took ht hf | tookLate ht hf => cases hf <;> simp [saying] at hret
    | congested hl =>
      cases List.mem_singleton.1 hret
      exact .inl ⟨_, ht, hl, rfl, rfl, rfl⟩
    | closed =>
      cases List.mem_singleton.1 hret
      exact .inr ⟨_, ht, rfl, rfl⟩
    | _ => simp at hret
  | handedOver ht => cases List.mem_singleton.1 hret
  | elapsed duration => cases hret

/-! ## Tasks that were started -/

/-- A task that was started is in one of some phases, unless it is gone. -/
def Past (P : Task → Prop) (e : Entity) (id : TaskId) : Prop :=
  id < e.started ∧ ∀ task, e.task? id = some task → P task

/-- The phases are not left by steps of the task. -/
def Closed (P : Task → Prop) : Prop :=
  ∀ {e id move task next outgoing incoming events}, P task →
    Act e id move task (some next) outgoing incoming events → P next

theorem Past.step {P : Task → Prop} (hP : Closed P) (hp : Past P e id) (ho : e.Orderly)
    (hr : Rule e move e' events) : Past P e' id := by
  obtain ⟨hlt, hphase⟩ := hp
  refine ⟨Nat.lt_of_lt_of_le hlt hr.started_le, fun task ht' => ?_⟩
  by_cases hid : actor? move = some id
  · cases hr with
    | start input | elapsed duration => cases hid
    | act ht ha =>
      obtain rfl := Option.some.inj (ha.actor.symm.trans hid)
      rw [task?_settle _ _ _ ht, if_pos rfl] at ht'
      exact hP (hphase _ ht) (ht' ▸ ha)
    | handedOver ht =>
      obtain rfl := Option.some.inj hid
      rw [ho.task?_handedOver ht, if_neg (Nat.ne_of_lt hlt), if_pos rfl] at ht'
      cases ht'
  · rw [hr.task?_of_ne ho hid hlt] at ht'
    exact hphase task ht'

theorem Past.of_run {P : Task → Prop} (hP : Closed P) (hp : Past P e id) (ho : e.Orderly)
    (hrun : Run step? e h e') : Past P e' id := by
  suffices e'.Orderly ∧ Past P e' id from this.2
  induction hrun with
  | rest => exact ⟨ho, hp⟩
  | step _ hs ih =>
    have hr := rule_of_step? hs
    exact ⟨ih.1.step hr, ih.2.step hP ih.1 hr⟩

end Entity

end ShortMessage.Control
