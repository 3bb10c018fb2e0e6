import Mathlib.Data.Nat.Count
import ShortMessage.Proofs.Control.Calls
import ShortMessage.Proofs.Control.Renumbering

/-!
# Requests that come again

Data for a transaction of the other side that has an owner is a repetition.  It may be found to be
one when the task for it looks at the slot, or when it takes the slot and another request was
faster; in both cases it is acknowledged and nothing else happens.

* `Aside` — a step of a task that leaves everything alone but the task;
* `Repeats.split` — all steps of a task that brings a repetition are such steps, and one of them
  acknowledges it;
* `erase_run` — so the same run is possible without these tasks, and the others do the same in it;
* `idempotent_of_run` — with one call for each request this is what makes repetitions harmless.
-/

namespace ShortMessage.Control

open Transaction

/-! ## What a history says of a repetition -/

/-- The transaction of the request that a task looks for or takes a slot for. -/
def Entity.offered? (e : Entity) (id : TaskId) : Option TransactionId :=
  match e.task? id with
  | some (.receiving (.arrived (.data t _))) => if t.flag then none else some t
  | some (.receiving (.opening t _)) => some t
  | _ => none

/-- The transaction of the data that a task finds to be a repetition in a step. -/
def repetition? (id : TaskId) (tr : Transit) : Option TransactionId :=
  match tr.move with
  | .run j =>
    if j = id then
      (tr.before.offered? id).filter fun t => tr.before.incoming.isHeld t.value.toNat
    else none
  | _ => none

/-- A task brings a repetition. -/
def Repeats (h : List Transit) (id : TaskId) (t : TransactionId) : Prop :=
  ∃ tr ∈ h, repetition? id tr = some t

/-- Data that comes in on a transaction. -/
inductive Brings (t : TransactionId) : Input → Prop where
  | message {payload} : Brings t (.receive (.data t payload))
  | octets {s payload} : Message.ofOctets s = .ok (.data t payload) → Brings t (.receiveOctets s)

/-- Some tasks are left out; the others are numbered as they come. -/
def leaveOut (drop : TaskId → Bool) : Numbering where
  keeps id := !drop id
  number := Nat.count fun id => (!drop id) = true
  injective hi hj := Nat.count_injective hi hj

/-- Is a step one of a task that is kept, or of none? -/
def retains (n : Numbering) (tr : Transit) : Bool :=
  match tr.move with
  | .start _ => n.keeps tr.before.started
  | move => (actor? move).all n.keeps

/-- The entity without the tasks that are left out. -/
def Entity.thinned (n : Numbering) (e : Entity) : Entity := e.image n id

/-- A step without the tasks that are left out. -/
def thinned (n : Numbering) (tr : Transit) : Transit where
  before := tr.before.thinned n
  move := tr.move.renumber n.number
  events := tr.events.map (Event.renumber n.number)
  after := tr.after.thinned n

/-- The same steps without those of tasks that are left out. -/
def erase (n : Numbering) (h : List Transit) : List Transit :=
  (h.filter (retains n)).map (thinned n)

/-- The steps that are left are a run, and others see no difference. -/
structure Unrepeated (config : Config) (drop : TaskId → Bool) (h : List Transit) (e : Entity) :
    Prop where
  run : Run Entity.step? (.ofConfig config) (erase (leaveOut drop) h) (e.thinned (leaveOut drop))
  outgoing : (e.thinned (leaveOut drop)).outgoing = e.outgoing
  incoming : (e.thinned (leaveOut drop)).incoming = e.incoming
  /-- What a task lets others see, and when. -/
  seen : ∀ {i}, drop i = false → seen Entity.clock h i =
    seen Entity.clock (erase (leaveOut drop) h) ((leaveOut drop).number i)
  emissions : ∀ {i}, drop i = false → emissions h i =
    emissions (erase (leaveOut drop) h) ((leaveOut drop).number i)
  results : ∀ {i}, drop i = false → results h i =
    results (erase (leaveOut drop) h) ((leaveOut drop).number i)

/-- What a history that leads to `e` says of requests and their repetitions. -/
structure Idempotent (config : Config) (h : List Transit) (e : Entity) : Prop where
  /-- One call for each request, or none. -/
  calls : Single h
  /-- A repetition is acknowledged as soon as it is found to be one. -/
  again : ∀ {tr id t}, tr ∈ h → repetition? id tr = some t →
    tr.events = [.emitted id (.ack t.reverse)] ∧
      tr.after = tr.before.put id (.receiving (.replying (.ok ())))
  /-- It is data that came in on a transaction that the other side opened. -/
  brought : ∀ {id t}, Repeats h id t → t.flag = false ∧ t.value.toNat < transactionCount ∧
    ∃ input, input? Entity.started h id = some input ∧ Brings t input
  /-- That is all that is said because of it, the application is not asked, and the transactions
  and all other tasks stay as they are. -/
  alone : ∀ {id t}, Repeats h id t → emissions h id = [.ack t.reverse] ∧
    ∀ tr ∈ h, (∀ call, .called id call ∉ tr.events) ∧ (actor? tr.move = some id →
      tr.after.outgoing = tr.before.outgoing ∧ tr.after.incoming = tr.before.incoming ∧
        ∀ j, j ≠ id → tr.after.task? j = tr.before.task? j)
  /-- Whichever repetitions are left out, all else is as it was. -/
  unrepeated : ∀ drop, (∀ id, drop id = true → ∃ t, Repeats h id t) → Unrepeated config drop h e

section

variable {config : Config} {h k : List Transit} {tr : Transit} {e e' : Entity} {id : TaskId}
  {move : Move Input} {events : List (Event Message Result)} {task : Task} {t : TransactionId}
  {drop : TaskId → Bool} {n : Numbering}

/-! ## The steps of a task that brings a repetition -/

/-- The phases of a task that does not know yet whether it brings a repetition. -/
def Task.isUndecided : Task → Bool
  | .receiving (.octets _) | .receiving (.arrived _) | .receiving (.opening _ _) => true
  | _ => false

/-- If the step is one of the task it leaves everything alone but the task, and if the task lets
others see anything it is its end. -/
structure Aside (id : TaskId) (tr : Transit) : Prop where
  settles : actor? tr.move = some id → ∃ task, tr.after =
    tr.before.settle id task tr.before.outgoing tr.before.incoming
  silent : ∀ ev ∈ tr.events, ev.task = id → ∃ result, ev = .returned id result

theorem closed_decided : Entity.Closed fun task => task.isUndecided = false := by
  intro e id move task next outgoing incoming events hdecided ha
  generalize hk : some next = task' at ha
  cases ha with
  | read | lookedAt => cases hdecided
  | delivered htake hf | took htake hf | tookLate htake hf => cases hf <;> cases hk <;> rfl
  | _ => first | (cases hk; rfl) | cases hk

theorem closed_replying :
    Entity.Closed fun task => task = .receiving (.replying (.ok ())) := by
  rintro e id move task next outgoing incoming events rfl ha
  generalize hk : some next = task' at ha
  cases ha <;> cases hk

theorem aside_settle {task : Option Task} (hsilent : ∀ ev ∈ events, ev.task = id →
    ∃ result, ev = .returned id result) :
    Aside id ⟨e, move, events, e.settle id task e.outgoing e.incoming⟩ :=
  ⟨fun _ => ⟨task, rfl⟩, hsilent⟩

theorem aside_of_ne (hr : Entity.Rule e move e' events) (hid : actor? move ≠ some id) :
    Aside id ⟨e, move, events, e'⟩ where
  settles hactor := absurd hactor hid
  silent _ hev htask := absurd ((hr.task_of_mem hev).trans (congrArg some htask)) hid

/-- As long as it is not known whether a task brings a repetition, it only reads and looks. -/
theorem aside_of_undecided (hr : Entity.Rule e move e' events) (ht' : e'.task? id = some task)
    (hundecided : task.isUndecided = true) : Aside id ⟨e, move, events, e'⟩ := by
  by_cases hid : actor? move = some id
  · cases hr with
    | start input | elapsed duration => cases hid
    | handedOver ht =>
      obtain rfl := Option.some.inj hid
      rw [Entity.task?_remove, if_pos rfl] at ht'
      cases ht'
    | @act j move task0 task' outgoing incoming events ht ha =>
      obtain rfl := Option.some.inj (ha.actor.symm.trans hid)
      rw [Entity.task?_settle _ _ _ ht, if_pos rfl] at ht'
      cases ha with
      | read | lookedAt => exact aside_settle (by simp)
      | delivered htake hf | took htake hf | tookLate htake hf =>
        cases hf <;> cases ht' <;> cases hundecided
      | _ => first | (cases ht'; cases hundecided) | cases ht'
  · exact aside_of_ne hr hid

/-- Once the acknowledgement is with the transport nothing is left but to wait for it. -/
theorem aside_of_replying (hr : Entity.Rule e move e' events)
    (hp : Entity.Past (fun task => task = .receiving (.replying (.ok ()))) e id) :
    Aside id ⟨e, move, events, e'⟩ := by
  by_cases hid : actor? move = some id
  · cases hr with
    | start input | elapsed duration => cases hid
    | handedOver ht =>
      obtain rfl := Option.some.inj hid
      cases hp.2 _ ht
    | act ht ha =>
      obtain rfl := Option.some.inj (ha.actor.symm.trans hid)
      obtain rfl := hp.2 _ ht
      cases ha with
      | replyDone | replyFailed => exact aside_settle (by simp)
      | aborted => exact aside_settle (by simp)
  · exact aside_of_ne hr hid

theorem repetition?_eq_some (hrep : repetition? id tr = some t) : tr.move = .run id ∧
    tr.before.offered? id = some t ∧ tr.before.incoming.isHeld t.value.toNat = true := by
  unfold repetition? at hrep
  split at hrep
  · rename_i j hmove
    split at hrep
    · rename_i hid
      subst hid
      obtain ⟨hoffered, hheld⟩ := Option.filter_eq_some_iff.1 hrep
      exact ⟨hmove, hoffered, hheld⟩
    · cases hrep
  · cases hrep

theorem Entity.offered?_eq_some (hoffered : e.offered? id = some t) :
    (∃ payload, e.task? id = some (.receiving (.arrived (.data t payload))) ∧ t.flag = false) ∨
      ∃ request, e.task? id = some (.receiving (.opening t request)) := by
  unfold offered? at hoffered
  split at hoffered
  · rename_i t' payload ht
    split at hoffered
    · cases hoffered
    · rename_i hflag
      cases hoffered
      exact .inl ⟨payload, ht, by simpa using hflag⟩
  · rename_i t' request ht
    cases hoffered
    exact .inr ⟨request, ht⟩
  · cases hoffered

/-- A repetition is acknowledged as soon as it is found to be one. -/
theorem again_of_repetition? (hr : Entity.Rule e move e' events)
    (hrep : repetition? id ⟨e, move, events, e'⟩ = some t) :
    events = [.emitted id (.ack t.reverse)] ∧
      e' = e.settle id (some (.receiving (.replying (.ok ())))) e.outgoing e.incoming := by
  obtain ⟨hmove, hoffered, hheld⟩ := repetition?_eq_some hrep
  simp only at hmove hoffered hheld
  subst hmove
  cases hr with
  | act ht ha =>
    obtain rfl := Option.some.inj ha.actor
    obtain ⟨payload, ht0, hflag⟩ | ⟨request, ht0⟩ := Entity.offered?_eq_some hoffered
    · rw [ht] at ht0
      cases ht0
      cases ha with
      | passedOver => exact ⟨rfl, rfl⟩
      | posted hflag' => rw [show t.flag = true from hflag'] at hflag; cases hflag
      | postedIncoming _ hdata => exact absurd rfl (hdata _ _)
      | stray _ hdata => exact absurd rfl (hdata hflag _ _)
      | lookedAt _ hidle | rejected _ hidle => rw [hheld] at hidle; cases hidle
    · rw [ht] at ht0
      cases ht0
      cases ha with
      | tooLate => exact ⟨rfl, rfl⟩
      | accepted hlease =>
        have hnone : e.incoming.leaseAt? t.value.toNat () = none := by
          rw [Table.leaseAt?_eq_none_iff, Bool.eq_false_iff]
          intro hidle
          rw [Table.isHeld_iff, Table.holder?_of_isIdle hidle] at hheld
          cases hheld
        rw [hlease] at hnone
        cases hnone

/-- The steps of a task that brings a repetition: in one of them it is found to be one, and in all
others everything else is left alone. -/
theorem Repeats.split (hrun : Run Entity.step? (.ofConfig config) h e) (hrep : Repeats h id t) :
    ∃ front tr back, h = front ++ tr :: back ∧ repetition? id tr = some t ∧
      (∀ tr ∈ front, Aside id tr) ∧ ∀ tr ∈ back, Aside id tr := by
  obtain ⟨tr, htr, hnow⟩ := hrep
  obtain ⟨front, back, rfl⟩ := List.append_of_mem htr
  refine ⟨front, tr, back, rfl, hnow, fun x hx => ?_, fun x hx => ?_⟩
  · -- after a step that decided the matter the task would not look for a slot any more
    obtain ⟨hfront, -, -⟩ := hrun.split
    obtain ⟨front, middle, rfl⟩ := List.append_of_mem hx
    obtain ⟨hfirst, hs, hmiddle⟩ := hfront.split
    have ho := (attentive_of_run hfirst).orderly
    have hr := Entity.rule_of_step? hs
    by_cases hid : actor? x.move = some id
    · obtain ⟨task, ht⟩ := hr.exists_task hid
      have hlt := Nat.lt_of_lt_of_le (ho.lt_started ht) hr.started_le
      obtain ⟨task', hundecided, ht'⟩ : ∃ task', task'.isUndecided = true ∧
          x.after.task? id = some task' := by
        by_contra hno
        have hpast : Entity.Past (fun task => task.isUndecided = false) x.after id :=
          ⟨hlt, fun task ht => Bool.eq_false_iff.2 fun hu => hno ⟨task, hu, ht⟩⟩
        have hthen := hpast.of_run closed_decided (ho.step hr) hmiddle
        obtain ⟨-, hoffered, -⟩ := repetition?_eq_some hnow
        obtain ⟨payload, ht, -⟩ | ⟨request, ht⟩ := Entity.offered?_eq_some hoffered
        · cases hthen.2 _ ht
        · cases hthen.2 _ ht
      exact aside_of_undecided hr ht' hundecided
    · exact aside_of_ne hr hid
  · obtain ⟨hfront, hs, hback⟩ := hrun.split
    have ho := (attentive_of_run hfront).orderly
    have hr := Entity.rule_of_step? hs
    obtain ⟨hmove, -, -⟩ := repetition?_eq_some hnow
    have hactor : actor? tr.move = some id := by
      rw [hmove]
      rfl
    obtain ⟨task, ht⟩ := hr.exists_task hactor
    obtain ⟨-, hafter⟩ := again_of_repetition? hr hnow
    have hpast : Entity.Past (fun task => task = .receiving (.replying (.ok ()))) tr.after id := by
      refine ⟨Nat.lt_of_lt_of_le (ho.lt_started ht) hr.started_le, fun task ht' => ?_⟩
      rw [hafter, Entity.task?_settle _ _ _ ht, if_pos rfl] at ht'
      exact (Option.some.inj ht').symm
    obtain ⟨middle, rest, rfl⟩ := List.append_of_mem hx
    obtain ⟨hmiddle, hs', -⟩ := hback.split
    exact aside_of_replying (Entity.rule_of_step? hs')
      (hpast.of_run closed_replying (ho.step hr) hmiddle)

/-- No step of a task that brings a repetition touches anything but the task. -/
theorem Repeats.settles (hrun : Run Entity.step? (.ofConfig config) h e) (hrep : Repeats h id t)
    (htr : tr ∈ h) (hid : actor? tr.move = some id) : ∃ task, tr.after =
      tr.before.settle id task tr.before.outgoing tr.before.incoming := by
  obtain ⟨front, x, back, rfl, hnow, hbefore, hafter⟩ := hrep.split hrun
  rcases List.mem_append.1 htr with htr | htr
  · exact (hbefore tr htr).settles hid
  · rcases List.mem_cons.1 htr with rfl | htr
    · obtain ⟨-, hs, -⟩ := hrun.split
      exact ⟨_, (again_of_repetition? (Entity.rule_of_step? hs) hnow).2⟩
    · exact (hafter tr htr).settles hid

theorem Aside.emissions_eq_nil (hall : ∀ tr ∈ h, Aside id tr) : emissions h id = [] := by
  refine List.flatMap_eq_nil_iff.2 fun tr htr => List.filterMap_eq_nil_iff.2 fun ev hev => ?_
  by_cases hid : ev.task = id
  · obtain ⟨result, rfl⟩ := (hall tr htr).silent ev hev hid
    rfl
  · cases ev with
    | emitted j m => exact if_neg hid
    | _ => rfl

/-- All that is said because of a repetition is its acknowledgement. -/
theorem Repeats.emissions (hrun : Run Entity.step? (.ofConfig config) h e) (hrep : Repeats h id t) :
    emissions h id = [.ack t.reverse] ∧ ∀ tr ∈ h, ∀ call, .called id call ∉ tr.events := by
  obtain ⟨front, x, back, rfl, hnow, hbefore, hafter⟩ := hrep.split hrun
  obtain ⟨-, hs, -⟩ := hrun.split
  obtain ⟨hev, -⟩ := again_of_repetition? (Entity.rule_of_step? hs) hnow
  constructor
  · rw [emissions_append, emissions_cons, Aside.emissions_eq_nil hbefore,
      Aside.emissions_eq_nil hafter, hev]
    simp [Event.emittedBy?]
  · intro tr htr call hcalled
    have haside : Aside id tr → False := by
      intro ha
      obtain ⟨result, hresult⟩ := ha.silent _ hcalled rfl
      cases hresult
    rcases List.mem_append.1 htr with htr | htr
    · exact haside (hbefore tr htr)
    · rcases List.mem_cons.1 htr with rfl | htr
      · simp [hev] at hcalled
      · exact haside (hafter tr htr)

/-! ## What came in -/

/-- What came in for a task that does not know yet whether it brings a repetition. -/
def Origin (input : Option Input) : Task → Prop
  | .receiving (.octets s) => input = some (.receiveOctets s)
  | .receiving (.arrived m) => input = some (.receive m) ∨
      ∃ s, input = some (.receiveOctets s) ∧ Message.ofOctets s = .ok m
  | .receiving (.opening t _) => t.flag = false ∧ ∃ i, input = some i ∧ Brings t i
  | _ => True

/-- What holds along every run. -/
structure Received (h : List Transit) (e : Entity) : Prop where
  fresh : ∀ {id}, e.started ≤ id → input? Entity.started h id = none
  origin : ∀ {id task}, e.task? id = some task → Origin (input? Entity.started h id) task

theorem Origin.step {input : Option Input} {task' : Task} {outgoing incoming : Table Message Unit}
    (ho : Origin input task)
    (ha : Entity.Act e id move task (some task') outgoing incoming events) : Origin input task' := by
  generalize hk : some task' = task'' at ha
  cases ha with
  | read hm =>
    cases hk
    exact .inr ⟨_, ho, hm⟩
  | lookedAt hflag =>
    cases hk
    refine ⟨hflag, ?_⟩
    obtain hinput | ⟨s, hinput, hread⟩ := ho
    · exact ⟨_, hinput, .message⟩
    · exact ⟨_, hinput, .octets hread⟩
  | delivered htake hf | took htake hf | tookLate htake hf => cases hf <;> cases hk <;> trivial
  | _ => first | (cases hk; trivial) | cases hk

theorem Received.step (hc : Received h e) (ho : e.Orderly) (hr : Entity.Rule e move e' events) :
    Received (h ++ [⟨e, move, events, e'⟩]) e' := by
  refine ⟨fun {id} hid => ?_, fun {id task} ht' => ?_⟩
  · obtain ⟨input, -, -, hstarted⟩ | hsame := hr.input?_eq h id
    · rw [hstarted] at hid
      exact absurd hid (Nat.not_succ_le_self id)
    · rw [hsame]
      exact hc.fresh (Nat.le_trans hr.started_le hid)
  · have hold {task : Task} (ht : e.task? id = some task) :
        input? Entity.started (h ++ [⟨e, move, events, e'⟩]) id = input? Entity.started h id := by
      obtain ⟨input, -, hid, -⟩ | hsame := hr.input?_eq h id
      · exact absurd (ho.lt_started ht) (Nat.not_lt.2 (Nat.le_of_eq hid))
      · exact hsame
    cases hr.standing ho ht' with
    | kept ht => exact hold ht ▸ hc.origin ht
    | acted ht hact => exact hold ht ▸ (hc.origin ht).step hact
    | started input hmove hid =>
      rw [input?_snoc_of_start (hc.fresh (Nat.le_of_eq hid.symm)) hmove hid.symm]
      cases input with
      | send m => trivial
      | receive m => exact .inl rfl
      | receiveOctets s => rfl
    | heir => trivial

theorem received_of_run (hrun : Run Entity.step? (.ofConfig config) h e) : Received h e := by
  suffices e.Orderly ∧ Received h e from this.2
  induction hrun with
  | rest => exact ⟨Entity.orderly_ofConfig config, fun _ => rfl, by rintro _ _ ⟨⟩⟩
  | step _ hs ih =>
    have hr := Entity.rule_of_step? hs
    exact ⟨ih.1.step hr, ih.2.step ih.1 hr⟩

/-- A task that looks for a slot was started for data. -/
theorem Received.brings (hc : Received h e) (hoffered : e.offered? id = some t) :
    t.flag = false ∧ ∃ input, input? Entity.started h id = some input ∧ Brings t input := by
  obtain ⟨payload, ht, hflag⟩ | ⟨request, ht⟩ := Entity.offered?_eq_some hoffered
  · refine ⟨hflag, ?_⟩
    obtain hinput | ⟨s, hinput, hread⟩ := hc.origin ht
    · exact ⟨_, hinput, .message⟩
    · exact ⟨_, hinput, .octets hread⟩
  · exact hc.origin ht

theorem Repeats.brought (hrun : Run Entity.step? (.ofConfig config) h e) (hrep : Repeats h id t) :
    t.flag = false ∧ t.value.toNat < transactionCount ∧
      ∃ input, input? Entity.started h id = some input ∧ Brings t input := by
  obtain ⟨tr, htr, hnow⟩ := hrep
  obtain ⟨front, back, rfl⟩ := List.append_of_mem htr
  obtain ⟨hfront, -, -⟩ := hrun.split
  obtain ⟨-, hoffered, hheld⟩ := repetition?_eq_some hnow
  obtain ⟨hflag, input, hinput, hbrings⟩ := (received_of_run hfront).brings hoffered
  refine ⟨hflag, ?_, input, ?_, hbrings⟩
  · have ho := (attentive_of_run hfront).orderly
    obtain ⟨holder, hholder⟩ := Option.isSome_iff_exists.1 (Table.isHeld_iff.1 hheld)
    obtain ⟨box, hbox, -⟩ := ho.incoming.sound.holder_mailbox hholder
    have hlt := ho.incoming.sound.index_lt hbox
    rwa [ho.incoming.sound.holder_index hholder, ho.incoming_length] at hlt
  · unfold input? at hinput ⊢
    rw [List.findSome?_append, hinput]
    rfl

/-! ## Runs without repetitions -/

/-- A step that is left out changes nothing, and a task that is added in another one is kept. -/
structure Erasable (n : Numbering) (tr : Transit) : Prop where
  continues : retains n tr = true → tr.before.spawns tr.move = true → n.Continues tr.before.started
  unchanged : retains n tr = false → tr.after.thinned n = tr.before.thinned n

theorem keeps_of_retains (hret : retains n tr = true) (hid : actor? tr.move = some id) :
    n.keeps id = true := by
  unfold retains at hret
  split at hret
  · rename_i hmove
    rw [hmove] at hid
    cases hid
  · simpa [hid] using hret

theorem erase_of_retained (hret : retains n tr = true) :
    erase n (h ++ [tr]) = erase n h ++ [thinned n tr] := by
  simp [erase, hret]

theorem erase_of_dropped (hret : ¬retains n tr = true) : erase n (h ++ [tr]) = erase n h := by
  simp [erase, hret]

/-- Without the steps that are left out a run is one under other numbers. -/
theorem erase_run (hrun : Run Entity.step? e h e') (hall : ∀ tr ∈ h, Erasable n tr) :
    Run Entity.step? (e.thinned n) (erase n h) (e'.thinned n) := by
  induction hrun with
  | rest => exact .rest
  | @step h t u move events _ hs ih =>
    have hfront := ih fun tr htr => hall tr (List.mem_append_left _ htr)
    have hlast : Erasable n ⟨t, move, events, u⟩ :=
      hall _ (List.mem_append_right _ (List.mem_singleton.2 rfl))
    by_cases hret : retains n ⟨t, move, events, u⟩ = true
    · have himage := t.step?_image (σ := id) Function.injective_id rfl
        (fun _ hid => keeps_of_retains hret hid) (hlast.continues hret)
      rw [hs] at himage
      rw [erase_of_retained hret]
      exact .step hfront himage
    · rw [erase_of_dropped hret, hlast.unchanged (by simpa using hret)]
      exact hfront

theorem number_succ_of_dropped (hid : drop id = true) :
    (leaveOut drop).number (id + 1) = (leaveOut drop).number id := by
  simp [leaveOut, Nat.count_succ, hid]

theorem continues_of_kept (hid : drop id = false) : (leaveOut drop).Continues id := by
  simp [Numbering.Continues, leaveOut, Nat.count_succ, hid]

theorem Entity.Rule.eq_of_start {input : Input} (hr : Entity.Rule e (.start input) e' events) :
    e' = e.spawn (Entity.taskFor input) := by
  cases hr with
  | start => rfl
  | act ht ha => cases ha

theorem Entity.Rule.eq_of_handedOver {j : TaskId} {service : Service}
    (hr : Entity.Rule e (.sent j (.ok ())) e' events)
    (ht : e.task? j = some (.receiving (.accepting service))) :
    e' = (e.spawn (.serving (.accepted service))).remove j := by
  cases hr with
  | act ht' ha =>
    obtain rfl := Option.some.inj ha.actor
    rw [ht] at ht'
    cases ht'
    cases ha
  | handedOver ht' =>
    rw [ht] at ht'
    cases ht'
    rfl

/-- A task that serves a request brings no repetition. -/
theorem not_repeats_heir {j : TaskId} {service : Service} (hrun : Run Entity.step? (.ofConfig config)
    (h ++ tr :: k) e) (hmove : tr.move = .sent j (.ok ()))
    (ht : tr.before.task? j = some (.receiving (.accepting service))) :
    ¬Repeats (h ++ tr :: k) tr.before.started t := by
  rintro ⟨x, hx, hnow⟩
  obtain ⟨hfront, hs, hback⟩ := hrun.split
  have ho := (attentive_of_run hfront).orderly
  have hr := Entity.rule_of_step? hs
  obtain ⟨hrunning, hoffered, -⟩ := repetition?_eq_some hnow
  rcases List.mem_append.1 hx with hx | hx
  · -- the task is not there yet
    obtain ⟨-, -, input, hinput, -⟩ := Repeats.brought hfront ⟨x, hx, hnow⟩
    rw [(received_of_run hfront).fresh (Nat.le_refl _)] at hinput
    cases hinput
  · rcases List.mem_cons.1 hx with rfl | hx
    · rw [hmove] at hrunning
      cases hrunning
    · -- the task has never had to decide
      have hpast : Entity.Past (fun task => task.isUndecided = false) tr.after tr.before.started := by
        have hafter := (hmove ▸ hr).eq_of_handedOver ht
        refine ⟨hafter ▸ Nat.lt_succ_self _, fun task htask => ?_⟩
        rw [hafter, ho.task?_handedOver ht, if_pos rfl] at htask
        cases htask
        rfl
      obtain ⟨middle, rest, rfl⟩ := List.append_of_mem hx
      obtain ⟨hmiddle, -, -⟩ := hback.split
      have hthen := hpast.of_run closed_decided (ho.step hr) hmiddle
      obtain ⟨payload, ht, -⟩ | ⟨request, ht⟩ := Entity.offered?_eq_some hoffered
      · cases hthen.2 _ ht
      · cases hthen.2 _ ht

theorem erasable_of_run (hrun : Run Entity.step? (.ofConfig config) h e)
    (hdrop : ∀ id, drop id = true → ∃ t, Repeats h id t) (htr : tr ∈ h) :
    Erasable (leaveOut drop) tr where
  continues hret hspawn := by
    refine continues_of_kept (Bool.eq_false_iff.2 fun hdropped => ?_)
    obtain ⟨t, hrep⟩ := hdrop _ hdropped
    unfold Entity.spawns at hspawn
    split at hspawn
    · rename_i input hmove
      simp [retains, hmove, leaveOut, hdropped] at hret
    · rename_i j hmove
      split at hspawn
      · rename_i service ht
        obtain ⟨front, back, rfl⟩ := List.append_of_mem htr
        exact not_repeats_heir hrun hmove ht hrep
      · cases hspawn
    · cases hspawn
  unchanged hret := by
    obtain ⟨front, back, heq⟩ := List.append_of_mem htr
    rw [heq] at hrun
    obtain ⟨-, hs, -⟩ := hrun.split
    have hr := Entity.rule_of_step? hs
    rw [← heq] at hrun
    unfold retains at hret
    split at hret
    · rename_i input hmove
      have hdropped : drop tr.before.started = true := by simpa [leaveOut] using hret
      have hstart : Entity.Rule tr.before (.start input) tr.after tr.events := hmove ▸ hr
      rw [hstart.eq_of_start]
      exact Entity.spawn_image_of_dropped _ (by simp [leaveOut, hdropped])
        (number_succ_of_dropped hdropped) _
    · rcases hid : actor? tr.move with _ | id
      · simp [hid] at hret
      · have hdropped : drop id = true := by simpa [hid, leaveOut] using hret
        obtain ⟨t, hrep⟩ := hdrop id hdropped
        obtain ⟨task, hafter⟩ := hrep.settles hrun htr hid
        rw [hafter]
        exact Entity.settle_image_of_dropped _ (by simp [leaveOut, hdropped]) task

/-- What a task that is kept lets others see is not left out. -/
theorem seen_erase {i : TaskId} (hrun : Run Entity.step? e h e') (hi : n.keeps i = true) :
    seen Entity.clock (erase n h) (n.number i) = seen Entity.clock h i := by
  induction hrun with
  | rest => rfl
  | @step h t u move events _ hs ih =>
    have hr := Entity.rule_of_step? hs
    by_cases hret : retains n ⟨t, move, events, u⟩ = true
    · have hk : ∀ ev ∈ events, n.keeps ev.task = true := fun ev hev =>
        keeps_of_retains hret (hr.task_of_mem hev)
      rw [erase_of_retained hret]
      exact seen_snoc_renumber hk hi rfl rfl ih
    · have hnone : events.filter (·.task = i) = [] := by
        refine List.filter_eq_nil_iff.2 fun ev hev htask => hret ?_
        have hactor := hr.task_of_mem hev
        rw [of_decide_eq_true htask] at hactor
        unfold retains
        split
        · rename_i hmove
          rw [show move = _ from hmove] at hactor
          cases hactor
        · simp [hactor, hi]
      rw [erase_of_dropped hret, seen_snoc, ih, hnone]
      exact (List.append_nil _).symm

theorem unrepeated_of_run (hrun : Run Entity.step? (.ofConfig config) h e)
    (hdrop : ∀ id, drop id = true → ∃ t, Repeats h id t) : Unrepeated config drop h e := by
  have hseen {i : TaskId} (hi : drop i = false) :=
    seen_erase (n := leaveOut drop) hrun (i := i) (by simp [leaveOut, hi])
  refine ⟨?_, rfl, Table.renumber_id _, fun hi => (hseen hi).symm,
    fun hi => (said_eq_of_seen_eq (hseen hi).symm).1, fun hi => (said_eq_of_seen_eq (hseen hi).symm).2⟩
  have hinit := Entity.image_ofConfig (leaveOut drop) rfl config
  exact hinit ▸ erase_run hrun fun tr htr => erasable_of_run hrun hdrop htr

/-! ## The result -/

theorem task?_settle_of_ne {j : TaskId} {next : Option Task} {outgoing incoming : Table Message Unit}
    (hne : j ≠ id) : (e.settle id next outgoing incoming).task? j = e.task? j := by
  cases next with
  | none => exact (Entity.task?_remove _ id j).trans (if_neg hne)
  | some next => exact (Entity.task?_put _ id j next).trans (if_neg hne)

/-- However often a request comes in, and at whatever moment, the application is asked once at most,
and each repetition is acknowledged and changes nothing else. -/
theorem idempotent_of_run (hrun : Run Entity.step? (.ofConfig config) h e) :
    Idempotent config h e where
  calls := single_of_run hrun
  again {tr id t} htr hrep := by
    obtain ⟨front, back, rfl⟩ := List.append_of_mem htr
    obtain ⟨-, hs, -⟩ := hrun.split
    exact again_of_repetition? (Entity.rule_of_step? hs) hrep
  brought := Repeats.brought hrun
  alone {id t} hrep := by
    obtain ⟨hemissions, hcalls⟩ := hrep.emissions hrun
    refine ⟨hemissions, fun tr htr => ⟨hcalls tr htr, fun hid => ?_⟩⟩
    obtain ⟨task, hafter⟩ := hrep.settles hrun htr hid
    rw [hafter, Entity.outgoing_settle, Entity.incoming_settle]
    exact ⟨rfl, rfl, fun j hj => task?_settle_of_ne hj⟩
  unrepeated _ hdrop := unrepeated_of_run hrun hdrop

/-- Two requests race for a slot.  The one that was faster is served, and comes in twice more, while
the application is asked and after it has answered. -/
def repeatedThrice : List (Move Input) :=
  [.start (.receive (.data ⟨false, 0⟩ [6, 1])), .start (.receive (.data ⟨false, 0⟩ [6, 1])),
    .run 0, .run 1, .run 0, .run 1, .sent 1 (.ok ()), .sent 0 (.ok ()), .run 2,
    .start (.receive (.data ⟨false, 0⟩ [6, 1])), .run 3,
    .answered 2 (.ok none) ⟨2000, 1, 1, 0, 0, 0, 0⟩,
    .start (.receiveOctets [0x09, 0x01, 0x02, 6, 1]), .run 4, .run 4, .sent 2 (.ok ())]

theorem idempotent_repeatedThrice : ∃ h e,
    replay Entity.step? (.ofConfig {}) repeatedThrice = some (h, e) ∧ Idempotent {} h e ∧
      callings h ⟨0, 0⟩ = [.memoryAvailable] ∧ (∀ id ∈ [1, 3, 4], Repeats h id ⟨false, 0⟩) ∧
      emissions h 2 = [.data ⟨true, 0⟩ [3, 1]] := by
  have hall : (replay Entity.step? (.ofConfig {}) repeatedThrice).any (fun r =>
      callings r.1 ⟨0, 0⟩ == [.memoryAvailable] &&
        [1, 3, 4].all (fun id => r.1.any fun tr => repetition? id tr == some ⟨false, 0⟩) &&
        emissions r.1 2 == [.data ⟨true, 0⟩ [3, 1]]) = true := by
    decide +kernel
  obtain ⟨h, e, hr, hrun, hc⟩ := exists_run_of_replay hall
  simp only [Bool.and_eq_true, beq_iff_eq, List.all_eq_true, List.any_eq_true] at hc
  exact ⟨h, e, hr, idempotent_of_run hrun, hc.1.1, hc.1.2, hc.2⟩

end

end ShortMessage.Control
