import ShortMessage.Proofs.Relay.Emissions
import ShortMessage.Proofs.Transaction.Insertion

/-!
# Answers that are refused

An answer that comes in is refused if no request waits for it or if it travels the wrong way.  It is
dealt with in one step, and when it is refused the step does nothing but return (`dealt_of_run`).

A call with such an answer leaves nothing behind but that a number was given to its task.  So the
entity goes on as it would have without the call (`mirrors`), which is shown on `Entity.image`, the
entity whose tasks have other numbers: every function of the entity comes to the same there, one lemma
for each (`step?_image`).
-/

namespace ShortMessage.Relay

open Transaction

/-- Is the end of an indication that it is refused? -/
def Result.isRefusal : Result → Bool
  | .indicated (.error _) => true
  | _ => false

/-- A call with an answer that is refused. -/
def Refused (e : Entity) (c : List Step) (e' : Entity) : Prop :=
  ∃ m failure, m.isRequest = false ∧ Call Entity.step? Entity.started e (.indication m) c e' ∧
    .indicated (.error failure) ∈ results c e.started

/-- How far a call with an answer that was made in the state `e` has come since its task was
started. -/
inductive Course (e : Entity) (m : Message) : List Step → Entity → Prop where
  | arrived : Course e m [] (e.spawn (.indicating m .arrived))
  | refused (s : Entity) (u : Undelivered Message) :
      Course e m [⟨s, .run e.started, [.returned e.started (.indicated (.error (refusal u)))],
        { e with started := e.started + 1 }⟩] { e with started := e.started + 1 }
  /-- The answer was not refused. -/
  | other {k s} : s.task? e.started = none →
      (∀ tr ∈ k, ∀ ev ∈ tr.events, ev = .returned e.started (.indicated (.ok ()))) → Course e m k s

/-- An answer is dealt with in a step that only returns.  When it is refused, the step leaves
everything as it was but for the task. -/
structure Alone (id : TaskId) (tr : Step) : Prop where
  events : ∀ ev ∈ tr.events, ∃ outcome, ev = .returned id (.indicated outcome)
  refused : ∀ failure, .returned id (.indicated (.error failure)) ∈ tr.events →
    tr.after = tr.before.remove id

/-- What a history says of the answers that came in. -/
structure Dealt (h : List Step) (e : Entity) : Prop where
  orderly : e.Orderly
  fresh : ∀ {id}, e.started ≤ id → input? Entity.started h id = none
  acted : ∀ {id tr}, tr ∈ h → actor? tr.move = some id → id < e.started
  /-- An answer whose task is not gone has just come in. -/
  arrived : ∀ {id m task}, input? Entity.started h id = some (.indication m) →
    m.isRequest = false → e.task? id = some task → task = .indicating m .arrived
  alone : ∀ {id m tr}, input? Entity.started h id = some (.indication m) → m.isRequest = false →
    tr ∈ h → actor? tr.move = some id → Alone id tr

namespace Entity

/-- The entity whose tasks have other numbers. -/
def image (n : Numbering) (e : Entity) : Entity :=
  { e with tasks := n.tasks (fun task => task) e.tasks, started := n.number e.started }

/-- What a step leads to, and what others see of it, under other numbers. -/
def imageStep (n : Numbering) : Option (Entity × List (Event Message Result)) →
    Option (Entity × List (Event Message Result)) :=
  Option.map fun (e, events) => (e.image n, events.map (Event.renumber n.number))

/-- The tasks in the list were started. -/
def Listed (e : Entity) : Prop := ∀ x ∈ e.tasks, x.1 < e.started

section

variable {n : Numbering} (e : Entity) {id : TaskId}

/-! ## The list of tasks under other numbers -/

theorem task?_image (hk : n.keeps id = true) : (e.image n).task? (n.number id) = e.task? id := by
  have hlookup := Numbering.lookup_tasks (fun task : Task => task) e.tasks hk
  rwa [Option.map_id'] at hlookup

theorem put_image (hk : n.keeps id = true) (task : Task) :
    (e.image n).put (n.number id) task = (e.put id task).image n := by
  simp [put, image, Numbering.tasks_replaced _ _ _ hk]

theorem remove_image (hk : n.keeps id = true) :
    (e.image n).remove (n.number id) = (e.remove id).image n := by
  simp only [remove, image, Numbering.tasks_removed _ _ hk]

theorem spawn_image (hn : n.Continues e.started) (task : Task) :
    (e.image n).spawn task = (e.spawn task).image n := by
  simp [spawn, image, Numbering.tasks_added _ _ _ hn.1, hn.2]

theorem finish_image (hk : n.keeps id = true) (result : Result) :
    (e.image n).finish (n.number id) result = imageStep n (e.finish id result) := by
  simp [finish, imageStep, remove_image e hk, Event.renumber]

theorem become_image (hk : n.keeps id = true) (task : Task) :
    (e.image n).become (n.number id) task = imageStep n (e.become id task) := by
  simp [become, imageStep, put_image e hk]

/-- An entity without tasks has no numbers. -/
theorem image_ofConfig (hzero : n.number 0 = 0) (config : Config) :
    (ofConfig config).image n = ofConfig config := by
  simp only [image, ofConfig, hzero]
  rfl

/-! ## What each move does under other numbers -/

theorem takeReference_image (hk : n.keeps id = true) (r : Request) :
    openRequest.takeReference (e.image n) (n.number id) r =
      imageStep n (openRequest.takeReference e id r) := by
  have hsame : (e.image n).references = e.references := rfl
  unfold openRequest.takeReference
  rw [hsame]
  rcases e.references.lease? r.answerDirection with _ | ⟨lease, references⟩
  · exact finish_image e hk _
  · have hput := put_image { e with references } hk (.requesting r (.transmitting lease))
    exact congrArg (fun e => some (e, _)) hput

theorem openRequest_image (hk : n.keeps id = true) (r : Request) :
    (e.image n).openRequest (n.number id) r = imageStep n (e.openRequest id r) := by
  unfold openRequest
  cases r with
  | notice => exact takeReference_image e hk _
  | transfer m =>
    simp only
    by_cases hm : m.isReport = true
    · rw [if_pos hm, if_pos hm]
      exact finish_image e hk _
    · rw [if_neg hm, if_neg hm]
      exact takeReference_image e hk _

theorem runRequest_image (hk : n.keeps id = true) (r : Request) (phase : Requesting) :
    (e.image n).runRequest (n.number id) r phase = imageStep n (e.runRequest id r phase) := by
  have hsame : (e.image n).references = e.references := rfl
  cases phase with
  | opening => exact openRequest_image e hk r
  | transmitting lease => rfl
  | awaiting lease deadline =>
    simp only [runRequest, hsame]
    rcases e.references.take? lease with _ | ⟨answer, references⟩
    · rfl
    · exact become_image { e with references } hk _
  | expired lease =>
    exact become_image { e with references := (e.references.retire lease).2 } hk _
  | closing lease outcome =>
    exact finish_image { e with references := e.references.drop lease } hk _

theorem runIndication_image (hk : n.keeps id = true) (m : Message) (phase : Indicating) :
    (e.image n).runIndication (n.number id) m phase = imageStep n (e.runIndication id m phase) := by
  have hsame : (e.image n).references = e.references := rfl
  cases phase with
  | handling => rfl
  | replying answer => rfl
  | arrived =>
    simp only [runIndication]
    rcases Service.call? m with _ | call
    · simp only [deliverAnswer, hsame]
      rcases e.references.postIf _ _ _ with u | references
      · cases u with
        | noOwner m => exact finish_image e hk _
        | refused m => exact finish_image e hk _
      · exact finish_image { e with references } hk _
    · exact congrArg (fun e => some (e, _)) (put_image e hk _)

theorem sent_image (hk : n.keeps id = true) (result : Except Failure Unit) :
    (e.image n).sent (n.number id) result = imageStep n (e.sent id result) := by
  unfold Entity.sent
  rw [task?_image e hk]
  split
  · exact become_image e hk _
  · exact become_image e hk _
  · exact finish_image e hk _
  · exact finish_image e hk _
  · rfl

theorem answered_image (hk : n.keeps id = true) (outcome : Service.Outcome) (now : Timestamp) :
    (e.image n).answered (n.number id) outcome now = imageStep n (e.answered id outcome now) := by
  unfold answered
  rw [task?_image e hk]
  split
  · split
    · exact congrArg (fun e => some (e, _)) (put_image e hk _)
    · exact finish_image e hk _
  · rfl

theorem expire_image (hk : n.keeps id = true) :
    (e.image n).expire (n.number id) = imageStep n (e.expire id) := by
  have hsame : (e.image n).references = e.references := rfl
  have hclock : (e.image n).clock = e.clock := rfl
  unfold expire
  rw [task?_image e hk, hsame, hclock]
  split
  · split
    · exact become_image e hk _
    · rfl
  · rfl

theorem abort_image (hk : n.keeps id = true) :
    (e.image n).abort (n.number id) = imageStep n (e.abort id) := by
  unfold abort
  rw [task?_image e hk]
  split
  · rfl
  · rename_i task _
    have hremove (references : Table Message Direction) :
        ({ e.image n with references } : Entity).remove (n.number id) =
          (({ e with references } : Entity).remove id).image n :=
      remove_image { e with references } hk
    rcases leaseOf? task with _ | lease
    · exact congrArg (fun e => some (e, [])) (hremove e.references)
    · exact congrArg (fun e => some (e, [])) (hremove (e.references.drop lease))

/-- Nothing that an entity does depends on the numbers of its tasks. -/
theorem step?_image (hk : ∀ id, n.keeps id = true)
    (hnext : n.number (e.started + 1) = n.number e.started + 1) (move : Move Input) :
    (e.image n).step? (move.renumber n.number) = imageStep n (e.step? move) := by
  cases move with
  | start input =>
    exact congrArg (fun e => some (e, [])) (spawn_image e ⟨hk _, hnext⟩ (taskFor input))
  | run id =>
    simp only [Move.renumber, step?, run, task?_image e (hk id)]
    rcases e.task? id with _ | ⟨r, phase⟩ | ⟨m, phase⟩
    · rfl
    · exact runRequest_image e (hk id) r phase
    · exact runIndication_image e (hk id) m phase
  | sent id result => exact sent_image e (hk id) result
  | answered id outcome now => exact answered_image e (hk id) outcome now
  | expire id => exact expire_image e (hk id)
  | abort id => exact abort_image e (hk id)
  | elapse duration => rfl

end

end Entity

section

variable {config : Config} {h c k : List Step} {e e' s : Entity} {id : TaskId} {move : Move Input}
  {events : List (Event Message Result)} {m : Message} {number : TaskId → TaskId}

/-! ## A call with an answer -/

theorem exists_of_isRefusal {result : Result} (hr : result.isRefusal = true) :
    ∃ failure, result = .indicated (.error failure) := by
  cases result with
  | requested outcome => cases hr
  | indicated outcome =>
    cases outcome with
    | ok => cases hr
    | error failure => exact ⟨failure, rfl⟩

theorem Entity.remove_spawn (hf : e.task? e.started = none) (task : Task) :
    (e.spawn task).remove e.started = { e with started := e.started + 1 } := by
  have hold : e.tasks.filter (·.1 ≠ e.started) = e.tasks := by
    refine List.filter_eq_self.2 fun x hx => ?_
    have hne := List.lookup_eq_none_iff.1 (show e.tasks.lookup e.started = none from hf) x hx
    simpa using fun h => by simp [h] at hne
  simp only [Entity.remove, Entity.spawn, List.filter_append, hold]
  simp

theorem Entity.Rule.task_of_mem {ev : Event Message Result} (hr : Entity.Rule e move e' events)
    (hev : ev ∈ events) : actor? move = some ev.task := by
  cases hr <;> simp at hev <;> subst hev <;> rfl

/-- An answer that has come in can only be taken, refused or given up. -/
theorem Entity.Rule.answer (hr : Entity.Rule e move e' events) (hid : actor? move = some id)
    (hm : m.isRequest = false) (ht : e.task? id = some (.indicating m .arrived)) :
    e'.task? id = none ∧ ((events = [] ∨ events = [.returned id (.indicated (.ok ()))]) ∨
      ∃ u, move = .run id ∧ events = [.returned id (.indicated (.error (refusal u)))] ∧
        e' = e.remove id) := by
  have hcall : Service.call? m = none := by
    cases m with
    | ack | error => rfl
    | data | memoryAvailable => cases hm
  cases hr with
  | start input | elapsed duration => cases hid
  | delivered => cases hid; exact ⟨by simp, .inl (.inr rfl)⟩
  | undelivered => cases hid; exact ⟨by simp, .inr ⟨_, rfl, rfl, rfl⟩⟩
  | aborted => cases hid; exact ⟨by simp, .inl (.inl rfl)⟩
  | called ht' hcall' =>
    cases hid
    rw [ht] at ht'
    cases ht'
    rw [hcall] at hcall'
    cases hcall'
  | misused ht' | congested ht' | opened ht' | took ht' | retired ht' | closed ht' | sent ht'
  | failed ht' | replied ht' | unreplied ht' | answered ht' | unanswered ht' | expired ht' =>
    cases hid
    rw [ht] at ht'
    cases ht'

theorem Course.step (hc : Course e m k s) (hf : e.task? e.started = none) (hm : m.isRequest = false)
    (hr : Entity.Rule s move e' events) (hid : actor? move = some e.started) :
    Course e m (k ++ [⟨s, move, events, e'⟩]) e' := by
  cases hc with
  | arrived =>
    have ht : (e.spawn (.indicating m .arrived)).task? e.started = some (.indicating m .arrived) := by
      simp [hf]
    obtain ⟨hgone, hother | ⟨u, rfl, rfl, rfl⟩⟩ := hr.answer hid hm ht
    · refine .other hgone fun tr htr ev hev => ?_
      obtain rfl := List.mem_singleton.1 htr
      rcases hother with hnone | hone
      · simp [hnone] at hev
      · simpa [hone] using hev
    · rw [Entity.remove_spawn hf]
      exact .refused _ u
  | refused s u => exact absurd hid (hr.absent (show Entity.task? _ _ = none from hf)).1
  | other hgone => exact absurd hid (hr.absent hgone).1

/-- When its answer is refused, a call leaves nothing behind but a number, and says nothing. -/
theorem Refused.untouched (hc : Refused e c e') (hf : e.task? e.started = none) :
    e' = { e with started := e.started + 1 } ∧
      ∀ tr ∈ c, ∀ ev ∈ tr.events, ∃ outcome, ev = .returned e.started (.indicated outcome) := by
  obtain ⟨m, failure, hm, hcall, hfailure⟩ := hc
  obtain ⟨e1, events, rest, rfl, hs, hrest, halone⟩ := hcall.start
  cases hs
  have hcourse : Course e m rest e' := hrest.invariant halone .arrived fun hc hstep hid =>
    hc.step hf hm (Entity.rule_of_step? hstep) hid
  cases hcourse with
  | arrived => cases hfailure
  | refused s u => exact ⟨rfl, by simp⟩
  | other _ hok =>
    obtain ⟨tr, htr, hret⟩ := mem_results.1 hfailure
    rcases List.mem_cons.1 htr with rfl | htr
    · cases hret
    · cases hok tr htr _ hret

/-! ## An answer among other steps -/

theorem Entity.Rule.alone (hr : Entity.Rule e move e' events) (hid : actor? move = some id)
    (hm : m.isRequest = false) (ht : e.task? id = some (.indicating m .arrived)) :
    Alone id ⟨e, move, events, e'⟩ := by
  obtain ⟨-, (rfl | rfl) | ⟨u, -, rfl, rfl⟩⟩ := hr.answer hid hm ht
  · exact ⟨by simp, by simp⟩
  · exact ⟨by simp, by simp⟩
  · exact ⟨by simp, fun _ _ => rfl⟩

theorem dealt_ofConfig (config : Config) : Dealt [] (.ofConfig config) where
  orderly := Entity.orderly_ofConfig config
  fresh _ := rfl
  acted htr := by cases htr
  arrived hinput := by cases hinput
  alone hinput := by cases hinput

theorem Dealt.step (hd : Dealt h e) (hs : e.step? move = some (e', events)) :
    Dealt (h ++ [⟨e, move, events, e'⟩]) e' := by
  have hr := Entity.rule_of_step? hs
  refine ⟨hd.orderly.step hs, fun {id} hid => ?_, fun {id tr} htr hactor => ?_,
    fun {id m task} hinput hm ht => ?_, fun {id m tr} hinput hm htr hactor => ?_⟩
  · obtain ⟨input, -, -, hlt⟩ | hsame := hr.input?_eq h id
    · exact absurd hid (Nat.not_le.2 (hlt ▸ Nat.lt_succ_self id))
    · exact hsame.trans (hd.fresh (Nat.le_trans hr.started_le hid))
  · refine Nat.lt_of_lt_of_le ?_ hr.started_le
    rcases List.mem_append.1 htr with htr | htr
    · exact hd.acted htr hactor
    · obtain rfl := List.mem_singleton.1 htr
      obtain ⟨task, ht⟩ := hr.exists_task hactor
      exact hd.orderly.lt_started ht
  · obtain ⟨input, rfl, rfl, -⟩ | hsame := hr.input?_eq h id
    · rw [input?_snoc_of_start (hd.fresh (Nat.le_refl _)) rfl rfl] at hinput
      cases hinput
      cases hs
      rw [Entity.task?_spawn, hd.orderly.fresh (Nat.le_refl _), Option.none_or, if_pos rfl] at ht
      exact (Option.some.inj ht).symm
    · rw [hsame] at hinput
      by_cases hactor : actor? move = some id
      · obtain ⟨task0, ht0⟩ := hr.exists_task hactor
        obtain rfl := hd.arrived hinput hm ht0
        rw [(hr.answer hactor hm ht0).1] at ht
        cases ht
      · obtain hsame' | ⟨input, rfl, rfl, -⟩ := hr.task?_of_ne hactor
        · exact hd.arrived hinput hm (hsame' ▸ ht)
        · rw [hd.fresh (Nat.le_refl _)] at hinput
          cases hinput
  · obtain ⟨input, rfl, rfl, -⟩ | hsame := hr.input?_eq h id
    · -- the task has only just been started
      rcases List.mem_append.1 htr with htr | htr
      · exact absurd (hd.acted htr hactor) (Nat.lt_irrefl _)
      · obtain rfl := List.mem_singleton.1 htr
        cases hactor
    · rw [hsame] at hinput
      rcases List.mem_append.1 htr with htr | htr
      · exact hd.alone hinput hm htr hactor
      · obtain rfl := List.mem_singleton.1 htr
        obtain ⟨task, ht⟩ := hr.exists_task hactor
        obtain rfl := hd.arrived hinput hm ht
        exact hr.alone hactor hm ht

theorem dealt_of_run (hrun : Run Entity.step? (.ofConfig config) h e) : Dealt h e := by
  induction hrun with
  | rest => exact dealt_ofConfig config
  | step _ hs ih => exact ih.step hs

/-- What is seen is seen of tasks that were started. -/
theorem task_lt_of_run (hrun : Run Entity.step? (.ofConfig config) h e) {tr : Step}
    {ev : Event Message Result} (htr : tr ∈ h) (hev : ev ∈ tr.events) : ev.task < e.started := by
  obtain ⟨front, back, rfl⟩ := List.append_of_mem htr
  have hs := hrun.split.2.1
  exact (dealt_of_run hrun).acted htr ((Entity.rule_of_step? hs).task_of_mem hev)

/-! ## Runs with refused answers put in -/

theorem Entity.Listed.step (hl : e.Listed) (ho : e.Orderly) (hr : Entity.Rule e move e' events) :
    e'.Listed := by
  have hput {id : TaskId} {task task' : Task} {references : Table Message Direction}
      (ht : e.task? id = some task) : (({ e with references } : Entity).put id task').Listed := by
    intro x hx
    obtain ⟨y, hy, rfl⟩ := List.mem_map.1 hx
    by_cases hid : y.1 = id
    · rw [if_pos hid]
      exact ho.lt_started ht
    · rw [if_neg hid]
      exact hl y hy
  have hremove {id : TaskId} {references : Table Message Direction} :
      (({ e with references } : Entity).remove id).Listed :=
    fun x hx => hl x (List.mem_filter.1 hx).1
  cases hr with
  | start input =>
    intro x hx
    rcases List.mem_append.1 hx with hx | hx
    · exact Nat.lt_succ_of_lt (hl x hx)
    · obtain rfl := List.mem_singleton.1 hx
      exact Nat.lt_succ_self _
  | elapsed duration => exact hl
  | opened ht | took ht | retired ht | called ht | sent ht | failed ht | answered ht | expired ht =>
    exact hput ht
  | misused | congested | closed | delivered | undelivered | replied | unreplied | unanswered
  | aborted => exact hremove

/-- Numbers that were never given out do not matter, but for the next one. -/
theorem Entity.Listed.image_congr {n m : Numbering} (hl : e.Listed)
    (hn : ∀ i < e.started, m.keeps i = n.keeps i ∧ m.number i = n.number i) :
    e.image m = { e.image n with started := m.number e.started } := by
  have htasks : m.tasks (fun task => task) e.tasks = n.tasks (fun task => task) e.tasks := by
    refine Numbering.tasks_congr _ _ fun x hx => ?_
    obtain ⟨hkeeps, hnumber⟩ := hn _ (hl x hx)
    exact ⟨hkeeps, hnumber, rfl⟩
  simp only [Entity.image, htasks]

/-- The entity `u` is `t` after some calls that left nothing behind. -/
def Mirror (number : TaskId → TaskId) (t u : Entity) : Prop :=
  t.Orderly ∧ t.Listed ∧ ∃ hn : Spaced t.started number, u = t.image (.all number hn.mono)

theorem Mirror.step {t u : Entity} (hm : Mirror number t u) (move : Move Input) :
    Option.Rel (fun x y => y.2 = x.2.map (Event.renumber number) ∧ Mirror number x.1 y.1)
      (t.step? move) (u.step? (move.renumber number)) := by
  obtain ⟨ho, hl, hn, rfl⟩ := hm
  have himage : (t.image (.all number hn.mono)).step? (move.renumber number) =
      Entity.imageStep (.all number hn.mono) (t.step? move) :=
    t.step?_image (fun _ => rfl) hn.succ move
  rw [himage]
  rcases hs : t.step? move with _ | ⟨t', events⟩
  · exact .none
  · have hr := Entity.rule_of_step? hs
    exact .some ⟨rfl, ho.step hs, hl.step ho hr, hn.of_le hr.started_le, rfl⟩

/-- A number that was given out leaves all others as they are. -/
theorem Mirror.next {t u : Entity} (hm : Mirror number t u) :
    Mirror (shift t.started number) t { u with started := u.started + 1 } := by
  obtain ⟨ho, hl, hn, rfl⟩ := hm
  have himage := hl.image_congr (n := .all number hn.mono) (m := .all _ hn.shift.mono)
    fun i hi => ⟨rfl, if_pos hi⟩
  have hstarted : (Numbering.all _ hn.shift.mono).number t.started = number t.started + 1 :=
    if_neg (Nat.lt_irrefl _)
  rw [hstarted] at himage
  exact ⟨ho, hl, hn.shift, himage.symm⟩

/-- Calls whose answer is refused leave no trace. -/
theorem mirrors (config : Config) :
    Mirrors Entity.step? Entity.started Entity.clock Refused (.ofConfig config) Mirror where
  rest := by
    refine ⟨Entity.orderly_ofConfig config, by rintro _ ⟨⟩, .id, ?_⟩
    exact (Entity.image_ofConfig rfl config).symm
  step move hm := hm.step move
  call hm hrun hc := by
    rw [(hc.untouched ((dealt_of_run hrun).orderly.fresh (Nat.le_refl _))).1]
    exact hm.next
  alone hrun hc := by
    have hquiet := (hc.untouched ((dealt_of_run hrun).orderly.fresh (Nat.le_refl _))).2
    obtain ⟨m, failure, -, hcall, -⟩ := hc
    refine ⟨hcall.run, fun tr htr ev hev => ?_⟩
    obtain ⟨outcome, rfl⟩ := hquiet tr htr ev hev
    rfl
  spaced := fun ⟨_, _, hn, _⟩ => hn
  started_eq := by
    rintro number t u ⟨-, -, hn, rfl⟩
    rfl
  clock_eq := by
    rintro number t u ⟨-, -, hn, rfl⟩
    rfl
  fresh hrun hid := seen_eq_nil fun tr htr ev hev =>
    Nat.ne_of_lt (Nat.lt_of_lt_of_le (task_lt_of_run hrun htr hev) hid)

/-- Answers that are refused leave no trace in a history that leads to `e`. -/
structure Refusals (config : Config) (h : List Step) (e : Entity) : Prop where
  /-- A call with one leaves nothing behind but the number of its task. -/
  untouched : ∀ {c e'}, Refused e c e' → e' = { e with started := e.started + 1 }
  /-- Nothing is sent for it, and the application is not asked. -/
  quiet : ∀ {c e'}, Refused e c e' → ∀ tr ∈ c, ∀ ev ∈ tr.events,
    ∃ outcome, ev = .returned e.started (.indicated outcome)
  /-- Whatever else goes on, a task for an answer does nothing but return when it is refused. -/
  alone : ∀ {id m tr}, input? Entity.started h id = some (.indication m) → m.isRequest = false →
    tr ∈ h → actor? tr.move = some id → Alone id tr
  /-- Wherever such calls are put in, everything else goes on as without them. -/
  unnoticed : ∀ {k u number},
    Padded Entity.step? Entity.started Refused (.ofConfig config) h e k u number →
    Unnoticed Entity.step? Entity.started Entity.clock Refused (.ofConfig config) h e k u number ∧
      u.references = e.references

theorem refusals (hrun : Run Entity.step? (.ofConfig config) h e) : Refusals config h e where
  untouched hc := (hc.untouched ((dealt_of_run hrun).orderly.fresh (Nat.le_refl _))).1
  quiet hc := (hc.untouched ((dealt_of_run hrun).orderly.fresh (Nat.le_refl _))).2
  alone := (dealt_of_run hrun).alone
  unnoticed hp := by
    obtain ⟨-, -, ⟨-, -, hn, rfl⟩, -⟩ := (mirrors config).seen_eq hp
    exact ⟨(mirrors config).unnoticed hp, rfl⟩

end

end ShortMessage.Relay
