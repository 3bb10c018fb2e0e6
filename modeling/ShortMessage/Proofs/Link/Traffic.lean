import Mathlib
import ShortMessage.Proofs.Control.Consumption
import ShortMessage.Proofs.Control.Occupancy
import ShortMessage.Proofs.Link.System

/-!
# Traffic that dies out

Two control entities talk over wires that may lose messages and let them overtake each other: what
is emitted arrives once at most, and in any order.  Everything else may happen to the entities too.

* `Message.weight`, `Task.weight` — how much can still be said because of a message or a task.  An
  error weighs nothing, an acknowledgement less than an answer, an answer less than a request;
* `Entity.load`, `Traffic.load` — what an entity and a system still have to say.  Unless something
  new is handed in or a timer runs down, no step adds to it, and every message that is emitted
  takes something away (`Entity.Rule.load_le`, `Traffic.Rule.load_le`);
* `subsides_of_run` — so the messages that can follow are at most as many as the load
  (`Subsiding`), and an error leads to none (`Harmless`).
-/

namespace ShortMessage.Control

open Transaction

/-! ## Weights -/

/-- How much can be said because of a message that arrives. -/
def Message.weight : Message → Nat
  | .data t _ => if t.flag then 2 else 5
  | .ack _ => 1
  | .error _ _ => 0

/-- How much a task can still say, unless a message comes for it. -/
def Task.weight : Task → Nat
  | .sending (.opening _) => 6
  | .serving (.accepted s) | .serving (.handling s) | .receiving (.accepting s) =>
    (Message.data s.transaction []).weight + 1
  | .receiving (.octets _) => 5
  | .receiving (.arrived m) => m.weight
  | .receiving (.opening t _) => (Message.data t.reverse []).weight + 3
  | _ => 0

/-- The weight of some messages. -/
def weigh (ms : List Message) : Nat := (ms.map Message.weight).sum

/-- What is emitted. -/
def emitted (events : List (Event Message Result)) : List Message :=
  events.filterMap fun
    | .emitted _ m => some m
    | _ => none

/-- What is emitted, and what that can lead to. -/
def outlay (events : List (Event Message Result)) : Nat :=
  (emitted events).length + weigh (emitted events)

/-- How much a task can still say, with the messages that wait for it in a table. -/
def Task.load (t : Table Message Unit) (task : Task) : Nat :=
  task.weight + (Entity.outgoingLease? task).elim 0 fun lease => weigh (t.pending lease)

namespace Entity

/-- How much a task of an entity can still say. -/
def loadOf (e : Entity) (id : TaskId) : Nat := (e.task? id).elim 0 (Task.load e.outgoing)

/-- How much all tasks can still say. -/
def load (e : Entity) : Nat := ∑ id ∈ Finset.range e.started, e.loadOf id

end Entity

/-- May a move be made when nothing new is handed in and no timer runs down? -/
def unprompted : Move Input → Bool
  | .start _ | .expire _ => false
  | _ => true

/-! ## Sums -/

@[simp] theorem weigh_nil : weigh [] = 0 := rfl

@[simp] theorem weigh_cons (m : Message) (ms : List Message) :
    weigh (m :: ms) = m.weight + weigh ms := by simp [weigh]

@[simp] theorem weigh_append (ms ns : List Message) : weigh (ms ++ ns) = weigh ms + weigh ns := by
  simp [weigh]

@[simp] theorem weight_data (t : TransactionId) (payload : Octets) :
    (Message.data t payload).weight = if t.flag then 2 else 5 := rfl

/-- No message weighs more than a request. -/
theorem weight_le (m : Message) : m.weight ≤ 5 := by
  cases m with
  | data t payload => by_cases hflag : t.flag <;> simp [hflag]
  | ack t => simp [Message.weight]
  | error t cause => simp [Message.weight]

/-- One summand pays for something, and no other one grows. -/
theorem sum_add_le {f g : Nat → Nat} {n id c : Nat} (hid : id < n) (hpays : g id + c ≤ f id)
    (hothers : ∀ j < n, j ≠ id → g j ≤ f j) :
    ∑ j ∈ Finset.range n, g j + c ≤ ∑ j ∈ Finset.range n, f j := by
  have hmem : id ∈ Finset.range n := Finset.mem_range.2 hid
  have hrest : ∑ j ∈ (Finset.range n).erase id, g j ≤ ∑ j ∈ (Finset.range n).erase id, f j :=
    Finset.sum_le_sum fun j hj =>
      hothers j (Finset.mem_range.1 (Finset.mem_of_mem_erase hj)) (Finset.ne_of_mem_erase hj)
  rw [← Finset.add_sum_erase _ g hmem, ← Finset.add_sum_erase _ f hmem]
  omega

/-- What one summand loses another one may gain. -/
theorem sum_le_of_passed {f g : Nat → Nat} {n id c : Nat} (heir : Nat) (hid : id < n)
    (hpays : g id + c ≤ f id) (hheir : ∀ j, j ≠ id → g j ≤ f j + if j = heir then c else 0) :
    ∑ j ∈ Finset.range n, g j ≤ ∑ j ∈ Finset.range n, f j := by
  have hgrown : ∑ j ∈ Finset.range n, (f j + if j = heir then c else 0) ≤
      ∑ j ∈ Finset.range n, f j + c := by
    rw [Finset.sum_add_distrib, Finset.sum_ite_eq']
    split <;> omega
  have hall := sum_add_le (f := fun j => f j + if j = heir then c else 0) hid
    (Nat.le_trans hpays (Nat.le_add_right _ _)) fun j _ hj => hheir j hj
  omega

/-! ## What a step costs -/

namespace Entity

variable {e e' : Entity} {id j : TaskId} {move : Move Input} {task : Task} {task' : Option Task}
  {outgoing incoming : Table Message Unit} {events : List (Event Message Result)} {m : Message}

/-- What a message of the other side leads to is paid for by the message. -/
theorem Follow.outlay {s : Session} {confirmed : Bool} {phase : Sending} {word : Option Message}
    (hf : Follow e s confirmed m phase word) (id : TaskId) : outlay (saying id word) ≤ m.weight := by
  cases hf with
  | @answered t | @refused t =>
    by_cases hflag : t.flag <;> simp [Control.outlay, saying, emitted, Message.weight, hflag]
  | _ => simp [Control.outlay, saying, emitted]

/-- A message of the other side leaves a task no more to say than what else waits for it. -/
theorem Follow.load {s : Session} {confirmed : Bool} {phase : Sending} {word : Option Message}
    (hf : Follow e s confirmed m phase word) (t : Table Message Unit) :
    (Task.sending phase).load t = weigh (t.pending s.lease) := by
  cases hf <;> simp [Task.load, Task.weight, outgoingLease?]

/-- A task that takes a step pays for what it says. -/
theorem Act.load_le (ha : Act e id move task task' outgoing incoming events)
    (hs : e.outgoing.Sound) (hmove : unprompted move = true) :
    task'.elim 0 (Task.load outgoing) + outlay events ≤ task.load e.outgoing := by
  cases ha with
  | opened hl hd =>
    obtain ⟨payload, -, rfl⟩ := carrying_eq_ok hd
    simp [Task.load, outgoingLease?, Task.weight, outlay, emitted,
      (hs.leased_of_lease? hl).pending]
  | unwritable hl =>
    simp [Task.load, outgoingLease?, Task.weight, outlay, emitted,
      (hs.leased_of_lease? hl).pending]
  | delivered htake hf | took htake hf =>
    have hcost := hf.outlay id
    rw [Option.elim_some, hf.load]
    simp only [Task.load, Task.weight, outgoingLease?, Option.elim_some, Table.pending_take? htake,
      weigh_cons]
    omega
  | tookLate hret hf =>
    have hcost := hf.outlay id
    rw [Table.retire_fst] at hret
    obtain ⟨rest, hrest⟩ := List.head?_eq_some_iff.1 hret
    rw [Option.elim_some, hf.load, Table.pending_retire, if_pos rfl, hrest, List.tail_cons]
    simp only [Task.load, Task.weight, outgoingLease?, Option.elim_some, hrest, weigh_cons]
    omega
  | tookNothing hret =>
    rw [Table.retire_fst, List.head?_eq_none_iff] at hret
    simp [Task.load, outgoingLease?, Task.weight, outlay, emitted, Table.pending_retire, hret]
  | replied ha hd =>
    obtain ⟨payload, -, rfl⟩ := carrying_eq_ok hd
    simp [Task.load, outgoingLease?, Task.weight, outlay, emitted]
    omega
  | @read s m => simpa [Task.load, outgoingLease?, Task.weight, outlay, emitted] using weight_le m
  | @stray m u hp hdata herror =>
    cases m with
    | data t payload =>
      by_cases hflag : t.flag <;>
        simp [Task.load, outgoingLease?, Task.weight, outlay, emitted, Message.weight, hflag]
    | ack t => simp [Task.load, outgoingLease?, Task.weight, outlay, emitted, Message.weight]
    | error t cause => exact absurd rfl (herror t cause)
  | lookedAt hflag | passedOver hflag | rejected hflag =>
    simp [Task.load, outgoingLease?, Task.weight, outlay, emitted, Message.weight, hflag,
      TransactionId.reverse]
  | repeated | gaveUp | expired | replyRepeated | replyGivenUp => cases hmove
  | _ => simp [Task.load, outgoingLease?, Task.weight, outlay, emitted, Message.weight]

theorem loadOf_eq (ht : e.task? id = some task) : e.loadOf id = task.load e.outgoing := by
  simp [loadOf, ht]

theorem loadOf_settle (ht : e.task? id = some task) (j : TaskId) :
    (e.settle id task' outgoing incoming).loadOf j =
      if j = id then task'.elim 0 (Task.load outgoing)
      else (e.task? j).elim 0 (Task.load outgoing) := by
  unfold loadOf
  rw [task?_settle _ _ _ ht, outgoing_settle]
  split <;> rfl

/-- What waits for other tasks stays. -/
theorem Orderly.load_of_change (ho : e.Orderly)
    (hc : Change e.outgoing (outgoingLease? task) (task'.bind outgoingLease?) outgoing)
    (ht : e.task? id = some task) (hne : j ≠ id) :
    (e.task? j).elim 0 (Task.load outgoing) = e.loadOf j := by
  unfold loadOf
  rcases hj : e.task? j with _ | other
  · rfl
  · rcases hl : outgoingLease? other with _ | lease
    · simp [Task.load, hl]
    · have hmailbox :=
        (ho.outgoing.of_ne hc (leaseOut?_eq ht) ((leaseOut?_eq hj).trans hl) hne).1
      simp [Task.load, hl, Table.pending, hmailbox]

/-- What is posted waits for one task. -/
theorem Orderly.load_of_post (ho : e.Orderly) {i : Nat} (hp : e.outgoing.post i m = .ok outgoing) :
    ∃ heir, ∀ j, (e.task? j).elim 0 (Task.load outgoing) ≤
      e.loadOf j + if j = heir then m.weight else 0 := by
  obtain ⟨holder, hholder, -, hpending⟩ := Table.pending_postIf hp
  obtain ⟨box, hbox, -⟩ := ho.outgoing.sound.holder_mailbox hholder
  obtain ⟨heir, hheir⟩ := ho.outgoing.owner hbox
  refine ⟨heir, fun j => ?_⟩
  unfold loadOf
  rcases hj : e.task? j with _ | other
  · exact Nat.zero_le _
  · rcases hl : outgoingLease? other with _ | lease
    · simp [Task.load, hl]
    · by_cases hlease : lease = holder.lease
      · obtain rfl : j = heir := ho.outgoing.unique ((leaseOut?_eq hj).trans (hlease ▸ hl)) hheir
        simp [Task.load, hl, hpending, hlease, Nat.add_assoc]
      · simp [Task.load, hl, hpending, hlease]

/-- Unless something new is handed in or a timer runs down, what is said and what is left to say
was to be said before. -/
theorem Rule.load_le (hr : Rule e move e' events) (ho : e.Orderly)
    (hmove : unprompted move = true) : e'.load + outlay events ≤ e.load := by
  unfold Entity.load
  cases hr with
  | start input => cases hmove
  | @act id move task task' outgoing incoming events ht ha =>
    have hlt := ho.lt_started ht
    rw [started_settle]
    obtain hc | ⟨m, rfl, hflag, hp, -, rfl, rfl, -⟩ := ha.outgoing_change ho.outgoing.sound
    · refine sum_add_le hlt ?_ fun j _ hj => ?_
      · rw [loadOf_settle ht, if_pos rfl, loadOf_eq ht]
        exact ha.load_le ho.outgoing.sound hmove
      · rw [loadOf_settle ht, if_neg hj, ho.load_of_change hc ht hj]
    · obtain ⟨heir, hheir⟩ := ho.load_of_post hp
      refine sum_le_of_passed heir hlt (c := m.weight) ?_ fun j hj => ?_
      · rw [loadOf_settle ht, if_pos rfl, loadOf_eq ht]
        simp [Task.load, Task.weight, outgoingLease?]
      · rw [loadOf_settle ht, if_neg hj]
        exact hheir j
  | @handedOver id service ht =>
    have hstarted : ((e.spawn (.serving (.accepted service))).remove id).started = e.started + 1 :=
      rfl
    have hload (j : TaskId) : ((e.spawn (.serving (.accepted service))).remove id).loadOf j =
        if j = e.started then (Task.serving (.accepted service)).load e.outgoing
        else if j = id then 0 else e.loadOf j := by
      unfold loadOf
      rw [ho.task?_handedOver ht]
      split
      · rfl
      · split <;> rfl
    have hlt := ho.lt_started ht
    rw [hstarted, Finset.sum_range_succ, hload, if_pos rfl, Nat.add_assoc]
    refine sum_add_le hlt ?_ fun j hj hne => ?_
    · rw [hload, if_neg (Nat.ne_of_lt hlt), if_pos rfl, loadOf_eq ht]
      simp [Task.load, Task.weight, outgoingLease?, outlay, emitted]
    · rw [hload, if_neg (Nat.ne_of_lt hj), if_neg hne]
  | elapsed duration => exact Nat.le_refl _

/-- What comes in adds its weight. -/
theorem Orderly.load_received (ho : e.Orderly) (m : Message) :
    (e.spawn (taskFor (.receive m))).load = e.load + m.weight := by
  have hstarted : (e.spawn (taskFor (.receive m))).started = e.started + 1 := rfl
  have hload (j : TaskId) : (e.spawn (taskFor (.receive m))).loadOf j =
      if j = e.started then m.weight else e.loadOf j := by
    unfold loadOf
    rw [ho.task?_spawn]
    split <;> rfl
  unfold load
  rw [hstarted, Finset.sum_range_succ, hload, if_pos rfl]
  refine congrArg (· + m.weight) (Finset.sum_congr rfl fun j hj => ?_)
  rw [hload, if_neg (Nat.ne_of_lt (Finset.mem_range.1 hj))]

end Entity

/-! ## Errors -/

/-- What a task is started for when an error comes in. -/
inductive ErrorInput : Input → Prop where
  | message {t cause} : ErrorInput (.receive (.error t cause))
  | octets {s t cause} : Message.ofOctets s = .ok (.error t cause) → ErrorInput (.receiveOctets s)

/-- An error leads to no message, whatever becomes of the transaction that it names. -/
structure Harmless (h : List Transit) : Prop where
  /-- The task for an error that comes in says nothing. -/
  unanswered : ∀ {id input}, input? Entity.started h id = some input → ErrorInput input →
    emissions h id = []
  /-- A task that takes an error says nothing more. -/
  last : ∀ {id k tr k' t cause}, h = k ++ tr :: k' → consumption? id tr = some (.error t cause) →
    emissions (tr :: k') id = []

/-- The phases of a task that has nothing more to say. -/
inductive Task.Silent : Task → Prop where
  | octets {s t cause} : Message.ofOctets s = .ok (.error t cause) → Silent (.receiving (.octets s))
  | error {t cause} : Silent (.receiving (.arrived (.error t cause)))
  | sent {lease outcome} : Silent (.sending (.closing lease outcome))
  | served {lease} : Silent (.serving (.closing lease))

/-- A task that was started has nothing more to say. -/
def Hushed (e : Entity) (id : TaskId) : Prop :=
  id < e.started ∧ ∀ task, e.task? id = some task → task.Silent

section

variable {config : Config} {h k : List Transit} {tr : Transit} {e e' : Entity} {id : TaskId}
  {task : Task} {task' : Option Task} {outgoing incoming : Table Message Unit}
  {move : Move Input} {events : List (Event Message Result)} {input : Input}

theorem ErrorInput.silent (hi : ErrorInput input) : (Entity.taskFor input).Silent := by
  cases hi with
  | message => exact .error
  | octets hs => exact .octets hs

theorem Task.Silent.step (hs : task.Silent)
    (ha : Entity.Act e id move task task' outgoing incoming events) :
    events.filterMap (·.emittedBy? id) = [] ∧ ∀ next, task' = some next → next.Silent := by
  cases hs with
  | octets hread =>
    cases ha with
    | read hm =>
      rw [hread] at hm
      cases hm
      exact ⟨rfl, fun next hnext => Option.some.inj hnext ▸ .error⟩
    | unknown hm | unknownStray hm | unread hm =>
      rw [hread] at hm
      cases hm
    | aborted => exact ⟨rfl, by rintro _ ⟨⟩⟩
  | error =>
    cases ha with
    | stray _ _ herror => exact absurd rfl (herror _ _)
    | posted | postedIncoming | strayError | aborted => exact ⟨rfl, by rintro _ ⟨⟩⟩
  | sent | served => cases ha <;> exact ⟨rfl, by rintro _ ⟨⟩⟩

theorem Hushed.step (hh : Hushed e id) (ho : e.Orderly) (hr : Entity.Rule e move e' events) :
    Hushed e' id ∧ events.filterMap (·.emittedBy? id) = [] := by
  have hpast : Entity.Past Task.Silent e' id :=
    Entity.Past.step (fun hs ha => (hs.step ha).2 _ rfl) hh ho hr
  refine ⟨hpast, ?_⟩
  by_cases hid : actor? move = some id
  · cases hr with
    | start input | elapsed duration => cases hid
    | act ht ha =>
      obtain rfl := Option.some.inj (ha.actor.symm.trans hid)
      exact ((hh.2 _ ht).step ha).1
    | handedOver ht =>
      obtain rfl := Option.some.inj hid
      cases hh.2 _ ht
  · exact hr.emits_nothing hid

theorem Hushed.emissions (hh : Hushed e id) (ho : e.Orderly) (hrun : Run Entity.step? e k e') :
    emissions k id = [] ∧ Hushed e' id ∧ e'.Orderly := by
  induction hrun with
  | rest => exact ⟨rfl, hh, ho⟩
  | step _ hs ih =>
    obtain ⟨hnil, hh, ho⟩ := ih
    have hr := Entity.rule_of_step? hs
    obtain ⟨hh', hsaid⟩ := hh.step ho hr
    refine ⟨?_, hh', ho.step hr⟩
    rw [emissions_snoc, hnil, hsaid]
    rfl

/-- A task that takes an error has nothing more to say. -/
theorem hushed_of_consumption? {t : TransactionId} {cause : Cause} (ho : e.Orderly)
    (hr : Entity.Rule e move e' events)
    (hc : consumption? id ⟨e, move, events, e'⟩ = some (.error t cause)) :
    Hushed e' id ∧ events.filterMap (·.emittedBy? id) = [] := by
  cases hr with
  | start input | elapsed duration => cases hc
  | handedOver ht => cases hc
  | @act j move task task' outgoing incoming events ht ha =>
    have hid : j = id := by
      by_contra hne
      rw [consumption?_of_ne (by rw [ha.actor]; simpa using hne)] at hc
      cases hc
    subst hid
    have hlt := ho.lt_started ht
    -- whatever the task waited for, it goes on to give its transaction back
    have hfollow {s : Session} {confirmed : Bool} {phase : Sending} {word : Option Message}
        (hf : Entity.Follow e s confirmed (.error t cause) phase word) :
        (Task.sending phase).Silent ∧ word = none := by
      cases hf with
      | ended => exact ⟨.sent, rfl⟩
      | arrived _ herror => exact absurd rfl (herror _ _)
    have hhushed {final : Task} (hfinal : final.Silent) :
        Hushed (e.settle j (some final) outgoing incoming) j := by
      refine ⟨by rwa [Entity.started_settle], fun task ht' => ?_⟩
      rw [Entity.task?_settle _ _ _ ht, if_pos rfl] at ht'
      exact Option.some.inj ht' ▸ hfinal
    cases ha with
    | delivered htake hf | took htake hf =>
      simp only [consumption?, if_true, Entity.next?, ht, Table.pending_take? htake,
        List.head?_cons, Option.some.injEq] at hc
      subst hc
      obtain ⟨hsilent, rfl⟩ := hfollow hf
      exact ⟨hhushed hsilent, rfl⟩
    | tookLate hret hf =>
      simp only [consumption?, if_true, Entity.next?, ht, ← Table.retire_fst, hret,
        Option.some.injEq] at hc
      subst hc
      obtain ⟨hsilent, rfl⟩ := hfollow hf
      exact ⟨hhushed hsilent, rfl⟩
    | confirmed => exact ⟨hhushed .served, rfl⟩
    | tookNothing hret => simp [consumption?, Entity.next?, ht, ← Table.retire_fst, hret] at hc
    | lapsed hpending => simp [consumption?, Entity.next?, ht, hpending] at hc
    | _ => simp [consumption?, Entity.next?, ht] at hc

theorem hushed_of_start (ho : e.Orderly) (hr : Entity.Rule e (.start input) e' events)
    (hi : ErrorInput input) : Hushed e' e.started ∧ events = [] := by
  cases hr with
  | start =>
    refine ⟨⟨Nat.lt_succ_self _, fun task ht => ?_⟩, rfl⟩
    rw [ho.task?_spawn, if_pos rfl] at ht
    exact Option.some.inj ht ▸ hi.silent
  | act ht ha => cases ha.actor

theorem harmless_of_run (hrun : Run Entity.step? (.ofConfig config) h e) : Harmless h where
  unanswered {id input} hinput herror := by
    obtain ⟨k, tr, k', heq, htr, -⟩ := List.findSome?_eq_some_iff.1 hinput
    rw [heq] at hrun
    obtain ⟨hfront, hs, hback⟩ := hrun.split
    have hv := vocal_of_run hfront
    have hr := Entity.rule_of_step? hs
    split at htr
    · rename_i input' hmove
      split at htr
      · rename_i hid
        cases htr
        obtain ⟨hhushed, hsaid⟩ := hushed_of_start hv.orderly (hmove ▸ hr) herror
        rw [hid] at hhushed
        rw [heq, emissions_append, emissions_cons, hv.fresh (Nat.le_of_eq hid), hsaid,
          (hhushed.emissions (hv.orderly.step hr) hback).1]
        rfl
      · cases htr
    · cases htr
  last {id k tr k' t cause} heq hc := by
    rw [heq] at hrun
    obtain ⟨hfront, hs, hback⟩ := hrun.split
    have ho := (attentive_of_run hfront).orderly
    have hr := Entity.rule_of_step? hs
    obtain ⟨hh, hsaid⟩ := hushed_of_consumption? ho hr hc
    rw [emissions_cons, hsaid, (hh.emissions (ho.step hr) hback).1]
    rfl

end

end ShortMessage.Control

namespace ShortMessage.Traffic

open Control Transaction
open Link (Party)

/-! ## The system -/

/-- A party, and what is on the way to it. -/
structure Station where
  entity : Entity
  inbound : List Message := []

/-- Both parties. -/
abbrev State := Party → Station

/-- What happens in a step. -/
inductive Deed where
  /-- A party makes a move. -/
  | act (p : Party) (move : Move Input)
  /-- A message on the way to a party comes in, the oldest or any other one. -/
  | deliver (p : Party) (i : Nat)
  /-- A message on the way to a party is lost. -/
  | lose (p : Party) (i : Nat)
  deriving Repr

/-- Does nothing new come from outside, and does no timer run down? -/
def Deed.isQuiet : Deed → Bool
  | .act _ move => unprompted move
  | .deliver _ _ | .lose _ _ => true

/-- A party makes a move when `inbound` is on the way to it.  What it emits is on the way to the
other one. -/
def advance? (l : State) (p : Party) (inbound : List Message) (move : Move Input) :
    Option (State × List (Event Message Result)) :=
  ((l p).entity.step? move).map fun (e, events) =>
    (fun q => if q = p then ⟨e, inbound⟩ else ⟨(l q).entity, (l q).inbound ++ emitted events⟩, events)

/-- What a step does, and what others see of it. -/
def step? (l : State) : Deed → Option (State × List (Event Message Result))
  | .act p move => advance? l p (l p).inbound move
  | .deliver p i => (l p).inbound[i]?.bind fun m =>
    advance? l p ((l p).inbound.eraseIdx i) (.start (.receive m))
  | .lose p i => (l p).inbound[i]?.map fun _ =>
    (fun q => if q = p then ⟨(l q).entity, (l q).inbound.eraseIdx i⟩ else l q, [])

/-- Two parties that have done nothing yet. -/
def ofConfigs (config : Party → Config) : State := fun p => { entity := Entity.ofConfig (config p) }

/-- A step of the system. -/
abbrev Passage := Transition State Deed (Event Message Result)

/-- The move of a party in a step. -/
def Deed.move? (l : State) (p : Party) : Deed → Option (Move Input)
  | .act q move => if q = p then some move else none
  | .deliver q i => if q = p then (l p).inbound[i]?.map fun m => .start (.receive m) else none
  | .lose _ _ => none

/-- A step as one of a party's entity. -/
def local? (p : Party) (tr : Passage) : Option Transit :=
  (tr.move.move? tr.before p).map fun move =>
    ⟨(tr.before p).entity, move, tr.events, (tr.after p).entity⟩

/-- What a party does in a history. -/
def steps (h : List Passage) (p : Party) : List Transit := h.filterMap (local? p)

/-! ## The load -/

/-- How much a party still has to say, with what is on the way to it. -/
def Station.load (s : Station) : Nat := s.entity.load + weigh s.inbound

/-- How much both parties still have to say. -/
def load (l : State) : Nat := (l .first).load + (l .second).load

/-- All that is emitted in a history. -/
def output (h : List Passage) : List Message := h.flatMap fun tr => emitted tr.events

/-- The messages of a history that leads from `l` to `l'` are paid for by the load. -/
structure Subsiding (l : State) (h : List Passage) (l' : State) : Prop where
  /-- No step adds to the load, and every message takes something away. -/
  pays : ∀ tr ∈ h, load tr.after + (emitted tr.events).length ≤ load tr.before
  /-- So there are at most as many messages as the load was at first. -/
  bounded : (output h).length + load l' ≤ load l

/-! ## Steps -/

variable {config : Party → Config} {l l' : State} {d : Deed} {h k : List Passage} {p : Party}
  {events : List (Event Message Result)} {tr : Passage}

theorem load_eq (l : State) (p : Party) : load l = (l p).load + (l p.peer).load := by
  cases p with
  | first => rfl
  | second => exact Nat.add_comm _ _

theorem weigh_eraseIdx {ms : List Message} {i : Nat} {m : Message} (hm : ms[i]? = some m) :
    weigh (ms.eraseIdx i) + m.weight = weigh ms := by
  induction ms generalizing i with
  | nil => cases hm
  | cons x xs ih =>
    cases i with
    | zero =>
      cases hm
      rw [List.eraseIdx_cons_zero, weigh_cons, Nat.add_comm]
    | succ i =>
      have hrest := ih (i := i) (by simpa using hm)
      rw [List.eraseIdx_cons_succ, weigh_cons, weigh_cons]
      omega

/-- What a step of the system is. -/
inductive Rule (l : State) : Deed → State → List (Event Message Result) → Prop where
  | act {p move e events l'} : (l p).entity.step? move = some (e, events) →
      l' p = ⟨e, (l p).inbound⟩ →
      l' p.peer = ⟨(l p.peer).entity, (l p.peer).inbound ++ emitted events⟩ →
      Rule l (.act p move) l' events
  | deliver {p i m e l'} : (l p).inbound[i]? = some m →
      (l p).entity.step? (.start (.receive m)) = some (e, []) →
      l' p = ⟨e, (l p).inbound.eraseIdx i⟩ → l' p.peer = l p.peer → Rule l (.deliver p i) l' []
  | lose {p i m l'} : (l p).inbound[i]? = some m →
      l' p = ⟨(l p).entity, (l p).inbound.eraseIdx i⟩ → l' p.peer = l p.peer →
      Rule l (.lose p i) l' []

theorem advance?_eq_some {inbound : List Message} {move : Move Input}
    (hs : advance? l p inbound move = some (l', events)) :
    ∃ e, (l p).entity.step? move = some (e, events) ∧ l' p = ⟨e, inbound⟩ ∧
      l' p.peer = ⟨(l p.peer).entity, (l p.peer).inbound ++ emitted events⟩ := by
  obtain ⟨⟨e, events'⟩, hstep, heq⟩ := Option.map_eq_some_iff.1 hs
  cases heq
  exact ⟨e, hstep, if_pos rfl, if_neg (Link.Party.peer_ne p)⟩

theorem rule_of_step? (hs : step? l d = some (l', events)) : Rule l d l' events := by
  cases d with
  | act p move =>
    obtain ⟨e, hstep, hself, hpeer⟩ := advance?_eq_some hs
    exact .act hstep hself hpeer
  | deliver p i =>
    obtain ⟨m, hm, hs⟩ := Option.bind_eq_some_iff.1 hs
    obtain ⟨e, hstep, hself, hpeer⟩ := advance?_eq_some hs
    have hnil : events = [] := by
      cases hstep
      rfl
    subst hnil
    exact .deliver hm hstep hself (hpeer.trans (by simp [emitted]))
  | lose p i =>
    obtain ⟨m, hm, heq⟩ := Option.map_eq_some_iff.1 hs
    cases heq
    exact .lose hm (if_pos rfl) (if_neg (Link.Party.peer_ne p))

/-- What a party does in a step. -/
theorem Rule.local (hr : Rule l d l' events) (p : Party) :
    (d.move? l p = none ∧ (l' p).entity = (l p).entity) ∨
      ∃ move e, d.move? l p = some move ∧ (l p).entity.step? move = some (e, events) ∧
        (l' p).entity = e := by
  cases hr with
  | @act q move e events l' hstep hself hpeer =>
    obtain rfl | rfl := Link.Party.eq_or q p
    · exact .inr ⟨move, e, if_pos rfl, hstep, by rw [hself]⟩
    · exact .inl ⟨if_neg (Link.Party.peer_ne q).symm, by rw [hpeer]⟩
  | @deliver q i m e l' hm hstep hself hpeer =>
    obtain rfl | rfl := Link.Party.eq_or q p
    · exact .inr ⟨.start (.receive m), e, by simp [Deed.move?, hm], hstep, by rw [hself]⟩
    · exact .inl ⟨if_neg (Link.Party.peer_ne q).symm, by rw [hpeer]⟩
  | @lose q i m l' hm hself hpeer =>
    obtain rfl | rfl := Link.Party.eq_or q p
    · exact .inl ⟨rfl, by rw [hself]⟩
    · exact .inl ⟨rfl, by rw [hpeer]⟩

/-- What a party does is a run of its entity. -/
theorem run_steps (hrun : Run step? l h l') (p : Party) :
    Run Entity.step? (l p).entity (steps h p) (l' p).entity := by
  induction hrun with
  | rest => exact .rest
  | @step h t u d events _ hs ih =>
    have hsnoc : steps (h ++ [⟨t, d, events, u⟩]) p =
        steps h p ++ (local? p ⟨t, d, events, u⟩).toList := filterMap_snoc _
    rw [hsnoc]
    obtain ⟨hmove, hsame⟩ | ⟨move, e, hmove, hstep, rfl⟩ := (rule_of_step? hs).local p
    · simpa [local?, hmove, hsame] using ih
    · simpa [local?, hmove] using ih.step hstep

/-! ## The result -/

/-- Every message that is emitted in a quiet step takes something away. -/
theorem Rule.load_le (hr : Rule l d l' events) (ho : ∀ p, (l p).entity.Orderly)
    (hquiet : d.isQuiet = true) : load l' + (emitted events).length ≤ load l := by
  cases hr with
  | @act p move e events l' hstep hself hpeer =>
    have hcost := (Entity.rule_of_step? hstep).load_le (ho p) hquiet
    rw [load_eq l p, load_eq l' p, hself, hpeer]
    simp only [Station.load, weigh_append, outlay] at hcost ⊢
    omega
  | @deliver p i m e l' hm hstep hself hpeer =>
    have hweight := weigh_eraseIdx hm
    have he : e = (l p).entity.spawn (Entity.taskFor (.receive m)) := by
      cases hstep
      rfl
    rw [load_eq l p, load_eq l' p, hself, hpeer, he]
    simp only [Station.load, (ho p).load_received, emitted, List.filterMap_nil, List.length_nil]
    omega
  | @lose p i m l' hm hself hpeer =>
    have hweight := weigh_eraseIdx hm
    rw [load_eq l p, load_eq l' p, hself, hpeer]
    simp only [Station.load, emitted, List.filterMap_nil, List.length_nil]
    omega

/-- In every state that can be reached, what is on the way and what waits in mailboxes bounds the
messages that can follow without anything new and without a timer, in whatever order they come in;
and errors lead to none at all. -/
theorem subsides_of_run (hrun : Run step? (ofConfigs config) h l) (hrun' : Run step? l k l')
    (hquiet : ∀ tr ∈ k, tr.move.isQuiet = true) :
    Subsiding l k l' ∧ ∀ p, Harmless (steps (h ++ k) p) := by
  refine ⟨?_, fun p => harmless_of_run (run_steps (hrun.append hrun') p)⟩
  induction hrun' with
  | rest => exact ⟨by simp, by simp [output]⟩
  | @step k t u d events hrun' hs ih =>
    have hih := ih fun tr htr => hquiet tr (List.mem_append_left _ htr)
    have hpays := (rule_of_step? hs).load_le
      (fun p => (attentive_of_run (run_steps (hrun.append hrun') p)).orderly)
      (hquiet _ (List.mem_append_right _ (List.mem_singleton.2 rfl)))
    refine ⟨fun tr htr => ?_, ?_⟩
    · obtain htr | htr := List.mem_append.1 htr
      · exact hih.pays tr htr
      · obtain rfl := List.mem_singleton.1 htr
        exact hpays
    · have hbounded := hih.bounded
      simp only [output, List.flatMap_append, List.flatMap_singleton, List.length_append] at *
      omega

/-- The first party is asked to send a notice, and an acknowledgement comes to it that nobody sent. -/
def asked : List Deed :=
  [.act .first (.start (.send (.memoryAvailable 7))),
    .act .first (.start (.receive (.ack ⟨true, 3⟩)))]

/-- The notice is answered, and the acknowledgement leads to an error.  The error overtakes. -/
def answeredAmidError : List Deed :=
  [.act .first (.run 0), .act .first (.run 1), .act .first (.sent 1 (.ok ())), .deliver .second 1,
    .act .second (.run 0), .deliver .second 0, .act .second (.run 1), .act .second (.run 1),
    .act .second (.sent 1 (.ok ())), .act .second (.run 2),
    .act .second (.answered 2 (.ok none) ⟨2000, 1, 1, 0, 0, 0, 0⟩), .lose .first 0,
    .deliver .first 0, .act .first (.sent 0 (.ok ())), .act .first (.run 2), .act .first (.run 0)]

theorem subsides_answeredAmidError :
    ∃ h l k l', replay step? (ofConfigs fun _ => {}) asked = some (h, l) ∧
      replay step? l answeredAmidError = some (k, l') ∧ (∀ tr ∈ k, tr.move.isQuiet = true) ∧
      Subsiding l k l' ∧ (∀ p, Harmless (steps (h ++ k) p)) ∧ load l = 7 ∧
      (output k).length = 5 ∧ load l' = 1 ∧
      input? Entity.started (steps (h ++ k) .second) 0 =
        some (.receive (.error ⟨false, 3⟩ .invalidTransactionId)) := by
  have hall : (replay step? (ofConfigs fun _ => {}) asked).any (fun r => load r.2 == 7 &&
      (replay step? r.2 answeredAmidError).any fun r' =>
        (r'.1.all fun tr => tr.move.isQuiet) && (output r'.1).length == 5 && load r'.2 == 1 &&
          input? Entity.started (steps (r.1 ++ r'.1) .second) 0 ==
            some (.receive (.error ⟨false, 3⟩ .invalidTransactionId))) = true := by
    decide +kernel
  obtain ⟨h, l, hr, hrun, hc⟩ := exists_run_of_replay hall
  rw [Bool.and_eq_true] at hc
  obtain ⟨k, l', hr', hrun', hc'⟩ := exists_run_of_replay hc.2
  simp only [Bool.and_eq_true, List.all_eq_true, beq_iff_eq] at hc hc'
  obtain ⟨hsub, hharm⟩ := subsides_of_run hrun hrun' hc'.1.1.1
  exact ⟨h, l, k, l', hr, hr', hc'.1.1.1, hsub, hharm, hc.1, hc'.1.1.2, hc'.1.2, hc'.2⟩

end ShortMessage.Traffic
