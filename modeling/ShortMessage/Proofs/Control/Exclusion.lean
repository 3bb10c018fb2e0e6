import ShortMessage.Proofs.Control.Consumption

/-!
# Timers and messages

A timer that runs down, a message that comes in and a transaction that is given back are steps of
their own, and the steps of others come between them in every order.  A message that comes in is
reported as delivered when it is put into a mailbox (`acceptances`, `arrivals`); whether its
transaction takes it is another matter (`consumptions`).

* a request that has waited for its answer long enough looks into its mailbox and gives its
  transaction back in one step, so that it takes whatever was delivered;
* data that was not acknowledged in time is given up in one step and gives its transaction back in a
  later one.  What is delivered in between is lost, and nothing else is: `Exclusive`, proved of every
  run by `exclusive_of_run`;
* `lost_acknowledgedBetween` — so a task can end by its timer although a message was delivered to it.
-/

namespace ShortMessage.Control

open Transaction

/-! ## Timers -/

/-- What a task waits for. -/
inductive Timer where
  | acknowledgement
  | answer
  deriving DecidableEq, Repr

/-- What a message to send comes to when it has waited in vain. -/
def Timer.failure : Timer → Failure
  | .acknowledgement => .control .networkFailure
  | .answer => .relayCause .resourcesUnavailable

/-- The timer for which a task decides in a step that it has waited in vain. -/
def timeout? (id : TaskId) (tr : Transit) : Option Timer :=
  match tr.move, tr.before.task? id, tr.after.task? id with
  | .expire j, some (.sending (.delivering _ _)), some (.sending (.closing _ _))
  | .expire j, some (.serving (.delivering _ _ _)), some (.serving (.closing _)) =>
    if j = id then some .acknowledgement else none
  | .run j, some (.sending (.expired s)), some (.sending (.closing _ _)) =>
    if j = id ∧ tr.before.outgoing.pending s.lease = [] then some .answer else none
  | _, _, _ => none

/-- What is delivered to transactions, and what they take of it, in a history that leads to `e`. -/
structure Exclusive (h : List Transit) (e : Entity) : Prop where
  /-- A request that waited for its answer in vain has taken all that was ever delivered to it. -/
  answer : ∀ {id k tr k'}, h = k ++ tr :: k' → timeout? id tr = some .answer →
    acceptances h id = consumptions h id
  /-- Data that waited for its acknowledgement in vain has taken all that was delivered before it
  decided so, and takes nothing that is delivered later. -/
  acknowledgement : ∀ {id k tr k' s handover}, h = k ++ tr :: k' →
    timeout? id tr = some .acknowledgement →
    tr.before.task? id = some (.sending (.delivering s handover)) →
    acceptances h id = consumptions h id ++ acceptances k' id
  /-- The same of an answer of this side. -/
  reply : ∀ {id k tr k' lease data handover}, h = k ++ tr :: k' →
    timeout? id tr = some .acknowledgement →
    tr.before.task? id = some (.serving (.delivering lease data handover)) →
    arrivals h lease = consumptions h id ++ arrivals k' lease
  /-- What a message to send comes to when it has waited in vain. -/
  outcome : ∀ {id k tr k' timer outcome}, h = k ++ tr :: k' → timeout? id tr = some timer →
    (∃ s, Returned k' id s (.sent outcome)) → outcome = .error timer.failure
  /-- Until the transaction is given back, what comes in is delivered as long as there is room. -/
  gap : ∀ {id j lease outcome m}, e.task? id = some (.sending (.closing lease outcome)) →
    e.outgoing.isReleased lease = false →
    (e.outgoing.pending lease).length < mailboxDepth →
    e.task? j = some (.receiving (.arrived m)) → m.transaction = (ownTransaction lease).reverse →
    ∃ e', e.step? (.run j) = some (e', [.returned j (.received (.ok ()))]) ∧
      acceptance? id ⟨e, .run j, [.returned j (.received (.ok ()))], e'⟩ = some m
  /-- The same of an answer of this side; a transaction of the other side is given back only with
  the task. -/
  gapReply : ∀ {id j lease m}, e.task? id = some (.serving (.closing lease)) →
    (e.incoming.pending lease).length < mailboxDepth →
    e.task? j = some (.receiving (.arrived m)) → m.isData = false →
    m.transaction = ⟨false, UInt8.ofNat lease.index⟩ →
    ∃ e', e.step? (.run j) = some (e', [.returned j (.received (.ok ()))]) ∧
      arrival? lease ⟨e, .run j, [.returned j (.received (.ok ()))], e'⟩ = some m
  /-- Data on a transaction of the other side is not put into the mailbox, and so it is never taken
  there. -/
  data : ∀ {lease}, ∀ m ∈ arrivals h lease, m.isData = false

section

variable {config : Config} {h k k' : List Transit} {tr : Transit} {e e' : Entity} {id j : TaskId}
  {m : Message} {move : Move Input} {events : List (Event Message Result)} {task : Task}
  {lease : Lease} {timer : Timer}

/-! ## What comes of a timer -/

/-- What a step in which a timer decides has found, and what it leaves behind. -/
inductive Decides (e e' : Entity) (id : TaskId) : Timer → Prop where
  | answer {s} : e.task? id = some (.sending (.expired s)) → e.outgoing.pending s.lease = [] →
      e'.task? id = some (.sending (.closing s.lease (.error Timer.answer.failure))) →
      e'.outgoing.isReleased s.lease = true → e'.outgoing.pending s.lease = [] →
      Decides e e' id .answer
  | acknowledgement {s repeated deadline} :
      e.task? id = some (.sending (.delivering s (.awaiting repeated deadline))) →
      e'.task? id = some (.sending (.closing s.lease (.error Timer.acknowledgement.failure))) →
      e'.outgoing.pending s.lease = [] → Decides e e' id .acknowledgement
  | reply {lease data repeated deadline} :
      e.task? id = some (.serving (.delivering lease data (.awaiting repeated deadline))) →
      e'.task? id = some (.serving (.closing lease)) → e'.incoming.pending lease = [] →
      Decides e e' id .acknowledgement

/-- A task that goes on by a step of its own. -/
theorem Entity.Rule.acted {task' : Task} (hr : Entity.Rule e move e' events) (ho : e.Orderly)
    (hid : actor? move = some id) (ht' : e'.task? id = some task') :
    ∃ task outgoing incoming, e.task? id = some task ∧
      Entity.Act e id move task (some task') outgoing incoming events ∧
      e' = e.settle id (some task') outgoing incoming := by
  cases hr.standing ho ht' with
  | kept _ hne => exact absurd hid hne
  | started input hmove =>
    subst hmove
    cases hid
  | acted ht ha he => exact ⟨_, _, _, ht, ha, he⟩
  | heir _ hmove _ he =>
    subst hmove
    cases hid
    rw [he, Entity.task?_remove, if_pos rfl] at ht'
    cases ht'

theorem decides_of_timeout? (ho : e.Orderly) (hr : Entity.Rule e move e' events)
    (htime : timeout? id ⟨e, move, events, e'⟩ = some timer) : Decides e e' id timer := by
  unfold timeout? at htime
  split at htime
  · rename_i j s handover lease outcome hmove hbefore hafter
    split at htime
    · rename_i hj
      cases htime
      simp only at hmove hbefore hafter
      subst hj hmove
      obtain ⟨task, outgoing, incoming, ht, ha, he⟩ := hr.acted ho rfl hafter
      rw [hbefore] at ht
      cases ht
      cases ha with
      | gaveUp _ hpending =>
        exact .acknowledgement hbefore hafter (by rw [he, Entity.outgoing_settle]; exact hpending)
    · cases htime
  · rename_i j lease data handover lease' hmove hbefore hafter
    split at htime
    · rename_i hj
      cases htime
      simp only at hmove hbefore hafter
      subst hj hmove
      obtain ⟨task, outgoing, incoming, ht, ha, he⟩ := hr.acted ho rfl hafter
      rw [hbefore] at ht
      cases ht
      cases ha with
      | replyGivenUp _ hpending =>
        exact .reply hbefore hafter (by rw [he, Entity.incoming_settle]; exact hpending)
    · cases htime
  · rename_i j s lease outcome hmove hbefore hafter
    split at htime
    · rename_i hj
      cases htime
      obtain ⟨hj, hpending⟩ := hj
      simp only at hmove hbefore hafter hpending
      subst hj hmove
      obtain ⟨task, outgoing, incoming, ht, ha, he⟩ := hr.acted ho rfl hafter
      rw [hbefore] at ht
      cases ht
      cases ha with
      | tookLate hret => simp [Table.retire_fst, hpending] at hret
      | tookNothing =>
        refine .answer hbefore hpending hafter ?_ ?_
        · rw [he, Entity.outgoing_settle, Table.isReleased_retire, if_pos rfl]
        · rw [he, Entity.outgoing_settle, Table.pending_retire, if_pos rfl, hpending]
          rfl
    · cases htime
  · cases htime

/-! ## After a timer -/

/-- Will a task do no more than give its transaction back? -/
def Task.isClosing : Task → Bool
  | .sending (.closing _ _) | .serving (.closing _) => true
  | _ => false

/-- A task does no more than give its transaction back, or is gone. -/
def Finishing (e : Entity) (id : TaskId) (final : Task) : Prop :=
  e.task? id = some final ∨ e.task? id = none ∧ id < e.started

section

variable {final : Task}

theorem Entity.Act.closing {task' : Option Task} {outgoing incoming : Table Message Unit}
    (ha : Entity.Act e id move task task' outgoing incoming events)
    (hclosing : task.isClosing = true) : task' = none := by
  cases ha with
  | closed | served | aborted => rfl
  | _ => first | rfl | cases hclosing

theorem Finishing.next? (hf : Finishing e id final) (hclosing : final.isClosing = true) :
    e.next? id = none := by
  unfold Entity.next?
  obtain ht | ⟨hn, -⟩ := hf
  · rw [ht]
    cases final with
    | sending phase => cases phase <;> first | rfl | cases hclosing
    | serving phase => cases phase <;> first | rfl | cases hclosing
    | receiving phase => rfl
  · rw [hn]

theorem Finishing.step (hf : Finishing e id final) (hclosing : final.isClosing = true)
    (ho : e.Orderly) (hr : Entity.Rule e move e' events) : Finishing e' id final := by
  obtain ht | ⟨hn, hlt⟩ := hf
  · by_cases hid : actor? move = some id
    · refine .inr ⟨?_, Nat.lt_of_lt_of_le (ho.lt_started ht) hr.started_le⟩
      rcases hgone : e'.task? id with _ | task'
      · rfl
      · obtain ⟨task, _, _, ht', ha, -⟩ := hr.acted ho hid hgone
        rw [ht] at ht'
        cases ht'
        cases ha.closing hclosing
    · exact .inl ((hr.task?_of_ne ho hid (ho.lt_started ht)).trans ht)
  · exact .inr ⟨hr.absent_after ho hn hlt, Nat.lt_of_lt_of_le hlt hr.started_le⟩

/-- What it ends with is what it came to. -/
theorem Finishing.sent {outcome : Outcome} (hf : Finishing e id final)
    (hclosing : final.isClosing = true) (hr : Entity.Rule e move e' events)
    (hret : .returned id (.sent outcome) ∈ events) :
    ∃ lease, final = .sending (.closing lease outcome) := by
  obtain ⟨m, hopening, -⟩ | ⟨lease, ht, -⟩ := hr.sent hret
  · obtain ht | ⟨hn, -⟩ := hf
    · rw [hopening] at ht
      cases ht
      cases hclosing
    · rw [hn] at hopening
      cases hopening
  · obtain ht' | ⟨hn, -⟩ := hf
    · rw [ht] at ht'
      cases ht'
      exact ⟨lease, rfl⟩
    · rw [hn] at ht
      cases ht

theorem finishing_of_run (hrun : Run Entity.step? e k e') (hf : Finishing e id final)
    (hclosing : final.isClosing = true) (ho : e.Orderly) :
    (e'.Orderly ∧ Finishing e' id final) ∧ consumptions k id = [] ∧
      ∀ s outcome, Returned k id s (.sent outcome) →
        ∃ lease, final = .sending (.closing lease outcome) := by
  induction hrun with
  | rest => exact ⟨⟨ho, hf⟩, rfl, by rintro s outcome ⟨_, hmem, -⟩; cases hmem⟩
  | step _ hs ih =>
    obtain ⟨⟨ho, hf⟩, hcons, hret⟩ := ih
    have hr := Entity.rule_of_step? hs
    refine ⟨⟨ho.step hr, hf.step hclosing ho hr⟩, ?_, fun s outcome h => ?_⟩
    · rw [consumptions_snoc, hcons, consumption?_of_next? (hf.next? hclosing)]
      rfl
    · obtain h | ⟨-, hev⟩ := returned_snoc.1 h
      · exact hret s outcome h
      · exact hf.sent hclosing hr hev

/-- Has a task no slot that a message could reach it by? -/
def Deaf (e : Entity) (id : TaskId) : Prop :=
  ∀ {lease}, e.leaseOut? id = some lease → e.outgoing.isReleased lease = true

theorem Deaf.acceptance? (hd : Deaf e id) (ho : e.Orderly) :
    acceptance? id ⟨e, move, events, e'⟩ = none := by
  rcases hacc : Control.acceptance? id ⟨e, move, events, e'⟩ with _ | x
  · rfl
  · obtain ⟨_, _, -, -, -, -, hholds⟩ := Entity.acceptance?_eq_some hacc
    obtain ⟨holder, hl, hholder⟩ := Entity.holds_iff.1 hholds
    obtain ⟨box, hbox, hopen⟩ := ho.outgoing.sound.holder_mailbox hholder
    have hreleased := hd hl
    rw [Table.isReleased_of_mailbox? hbox, hopen] at hreleased
    cases hreleased

theorem Entity.Rule.isReleased_of_ne (hr : Entity.Rule e move e' events) (ho : e.Orderly)
    (hid : actor? move ≠ some id) (hl : e.leaseOut? id = some lease) :
    e'.outgoing.isReleased lease = e.outgoing.isReleased lease := by
  cases hr with
  | act ht ha =>
    rw [Entity.outgoing_settle]
    refine (ho.outgoing_of_ne ht ha hl ?_).1
    rintro rfl
    exact hid ha.actor
  | _ => rfl

theorem Deaf.step (hd : Deaf e id) (hf : Finishing e id final) (hclosing : final.isClosing = true)
    (ho : e.Orderly) (hr : Entity.Rule e move e' events) : Deaf e' id := by
  intro lease hl
  by_cases hid : actor? move = some id
  · obtain ⟨task', ht', -⟩ := Option.bind_eq_some_iff.1 hl
    obtain ⟨task, _, _, ht, ha, -⟩ := hr.acted ho hid ht'
    obtain ht0 | ⟨hn, -⟩ := hf
    · rw [ht0] at ht
      cases ht
      cases ha.closing hclosing
    · rw [hn] at ht
      cases ht
  · have hlt : id < e.started := hf.elim ho.lt_started And.right
    unfold Entity.leaseOut? at hl
    rw [hr.task?_of_ne ho hid hlt] at hl
    rw [hr.isReleased_of_ne ho hid hl]
    exact hd hl

theorem Deaf.acceptances (hd : Deaf e id) (hf : Finishing e id final)
    (hclosing : final.isClosing = true) (ho : e.Orderly) (hrun : Run Entity.step? e k e') :
    acceptances k id = [] ∧ Deaf e' id := by
  induction hrun with
  | rest => exact ⟨rfl, hd⟩
  | step hrun hs ih =>
    obtain ⟨hacc, hd⟩ := ih
    obtain ⟨⟨ho, hf⟩, -⟩ := finishing_of_run hrun hf hclosing ho
    have hr := Entity.rule_of_step? hs
    refine ⟨?_, hd.step hf hclosing ho hr⟩
    rw [acceptances_snoc, hacc, hd.acceptance? ho]
    rfl

end

/-! ## The result -/

theorem Entity.Orderly.post_of_holds (ho : e.Orderly) (hl : e.leaseOut? id = some lease)
    (hopen : e.outgoing.isReleased lease = false)
    (hroom : (e.outgoing.pending lease).length < mailboxDepth) (m : Message) :
    ∃ outgoing, e.outgoing.post lease.index m = .ok outgoing := by
  obtain ⟨box, hbox⟩ := ho.outgoing.mailbox hl
  rw [Table.isReleased_of_mailbox? hbox] at hopen
  obtain ⟨key, hholder⟩ := ho.outgoing.sound.holder_of_unreleased hbox hopen
  rw [Table.pending_of_mailbox? hbox] at hroom
  exact ⟨_, Table.postIf_of_room hholder rfl hbox hroom⟩

theorem Entity.Orderly.incoming_value_toNat (ho : e.Orderly) (hl : e.leaseIn? id = some lease) :
    (UInt8.ofNat lease.index).toNat = lease.index := by
  obtain ⟨box, hbox⟩ := ho.incoming.mailbox hl
  have hlt := ho.incoming_length ▸ ho.incoming.sound.index_lt hbox
  exact Nat.mod_eq_of_lt (Nat.lt_trans hlt (by decide))

theorem not_isData_of_arrival? (hr : Entity.Rule e move e' events)
    (ha : arrival? lease ⟨e, move, events, e'⟩ = some m) : m.isData = false := by
  obtain ⟨j, k, hmove, hev, hj, hflag, -⟩ := arrival?_eq_some ha
  simp only at hmove hev hj
  subst hmove hev
  cases hr with
  | act ht hact =>
    obtain rfl := Option.some.inj hact.actor
    rw [hj] at ht
    cases ht
    cases hact with
    | posted hflag' =>
      rw [hflag] at hflag'
      cases hflag'
    | postedIncoming _ hdata =>
      cases m with
      | data t payload => exact absurd rfl (hdata t payload)
      | _ => rfl

/-- A history is cut at one of its steps. -/
theorem eq_of_getElem? {i : Nat} (htr : h[i]? = some tr) : h = h.take i ++ tr :: h.drop (i + 1) := by
  obtain ⟨hlt, hget⟩ := List.getElem?_eq_some_iff.1 htr
  rw [← hget, ← List.drop_eq_getElem_cons hlt, List.take_append_drop]

/-- A step of a run, and what a timer that decides in it has found. -/
theorem exists_decides (hrun : Run Entity.step? (.ofConfig config) h e) (heq : h = k ++ tr :: k')
    (htime : timeout? id tr = some timer) :
    Run Entity.step? (.ofConfig config) (k ++ [tr]) tr.after ∧ Run Entity.step? tr.after k' e ∧
      tr.after.Orderly ∧ Decides tr.before tr.after id timer := by
  rw [heq] at hrun
  obtain ⟨hfront, hs, hback⟩ := hrun.split
  have ho := (attentive_of_run hfront).orderly
  have hr := Entity.rule_of_step? hs
  exact ⟨.step hfront hs, hback, ho.step hr, decides_of_timeout? ho hr htime⟩

/-- A request that waited for its answer in vain has given its transaction back with the last look, and
nothing reaches it afterwards. -/
theorem acceptances_of_answer (hrun : Run Entity.step? (.ofConfig config) h e)
    (heq : h = k ++ tr :: k') (htime : timeout? id tr = some .answer) :
    acceptances h id = consumptions h id := by
  obtain ⟨hfront, hback, ho, hd⟩ := exists_decides hrun heq htime
  cases hd with
  | @answer s _ _ ht hreleased hpending =>
    have hdeaf : Deaf tr.after id := by
      intro lease hl
      rw [Entity.leaseOut?_eq ht] at hl
      cases hl
      exact hreleased
    have hnow := ((tallied_of_run hfront).tally ht).outgoing s.lease rfl
    have hlater := (hdeaf.acceptances (.inl ht) rfl ho hback).1
    have htaken := (finishing_of_run hback (.inl ht) rfl ho).2.1
    have hcut : h = (k ++ [tr]) ++ k' := by simp [heq]
    rw [hcut, acceptances_append, consumptions_append, hnow, hpending, hlater, htaken,
      List.append_nil]

/-- Data that waited for its acknowledgement in vain still has its transaction, but looks no more. -/
theorem acceptances_of_acknowledgement {s : Session} {handover : Handover}
    (hrun : Run Entity.step? (.ofConfig config) h e) (heq : h = k ++ tr :: k')
    (htime : timeout? id tr = some .acknowledgement)
    (hbefore : tr.before.task? id = some (.sending (.delivering s handover))) :
    acceptances h id = consumptions h id ++ acceptances k' id := by
  obtain ⟨hfront, hback, ho, hd⟩ := exists_decides hrun heq htime
  cases hd with
  | @acknowledgement s _ _ _ ht hpending =>
    have hnow := ((tallied_of_run hfront).tally ht).outgoing s.lease rfl
    have htaken := (finishing_of_run hback (.inl ht) rfl ho).2.1
    have hcut : h = (k ++ [tr]) ++ k' := by simp [heq]
    rw [hcut, acceptances_append, consumptions_append, hnow, hpending, htaken]
  | reply hreply =>
    rw [hbefore] at hreply
    cases hreply

theorem arrivals_of_reply {data : Message} {handover : Handover}
    (hrun : Run Entity.step? (.ofConfig config) h e) (heq : h = k ++ tr :: k')
    (htime : timeout? id tr = some .acknowledgement)
    (hbefore : tr.before.task? id = some (.serving (.delivering lease data handover))) :
    arrivals h lease = consumptions h id ++ arrivals k' lease := by
  obtain ⟨hfront, hback, ho, hd⟩ := exists_decides hrun heq htime
  cases hd with
  | acknowledgement hsend =>
    rw [hbefore] at hsend
    cases hsend
  | reply hreply ht hpending =>
    rw [hbefore] at hreply
    cases hreply
    have hnow := ((tallied_of_run hfront).tally ht).incoming lease rfl
    have htaken := (finishing_of_run hback (.inl ht) rfl ho).2.1
    have hcut : h = (k ++ [tr]) ++ k' := by simp [heq]
    rw [hcut, arrivals_append, consumptions_append, hnow, hpending, htaken]

theorem outcome_of_timeout {outcome : Outcome} (hrun : Run Entity.step? (.ofConfig config) h e)
    (heq : h = k ++ tr :: k') (htime : timeout? id tr = some timer)
    (hret : ∃ s, Returned k' id s (.sent outcome)) : outcome = .error timer.failure := by
  obtain ⟨-, hback, ho, hd⟩ := exists_decides hrun heq htime
  obtain ⟨s, hret⟩ := hret
  cases hd with
  | answer _ _ ht | acknowledgement _ ht =>
    obtain ⟨lease, hfinal⟩ := (finishing_of_run hback (.inl ht) rfl ho).2.2 s outcome hret
    cases hfinal
    rfl
  | reply _ ht =>
    obtain ⟨lease, hfinal⟩ := (finishing_of_run hback (.inl ht) rfl ho).2.2 s outcome hret
    cases hfinal

/-- A message for a transaction that this side still has is delivered, although its owner looks no
more. -/
theorem Entity.Orderly.delivers_closing {outcome : Outcome} (ho : e.Orderly)
    (ht : e.task? id = some (.sending (.closing lease outcome)))
    (hopen : e.outgoing.isReleased lease = false)
    (hroom : (e.outgoing.pending lease).length < mailboxDepth)
    (hj : e.task? j = some (.receiving (.arrived m)))
    (htransaction : m.transaction = (ownTransaction lease).reverse) :
    ∃ e', e.step? (.run j) = some (e', [.returned j (.received (.ok ()))]) ∧
      acceptance? id ⟨e, .run j, [.returned j (.received (.ok ()))], e'⟩ = some m := by
  have hl : e.leaseOut? id = some lease := Entity.leaseOut?_eq ht
  have hholds := ho.holds hl hopen
  obtain ⟨outgoing, hpost⟩ := ho.post_of_holds hl hopen hroom m
  have hflag : m.transaction.flag = true := by
    rw [htransaction]
    rfl
  have hvalue : m.transaction.value = (ownTransaction lease).value := by
    rw [htransaction]
    rfl
  rw [← ho.value_toNat hl, ← hvalue] at hpost
  refine ⟨({ e with outgoing } : Entity).remove j, ?_, ?_⟩
  · simp [Entity.step?, Entity.run, hj, Entity.runReceiving, Entity.receiveMessage, hflag, hpost,
      Entity.finish]
  · rw [Entity.acceptance?_posted hj hflag, hvalue, if_pos hholds]

theorem Entity.Orderly.delivers_servingClosing (ho : e.Orderly)
    (ht : e.task? id = some (.serving (.closing lease)))
    (hroom : (e.incoming.pending lease).length < mailboxDepth)
    (hj : e.task? j = some (.receiving (.arrived m))) (hdata : m.isData = false)
    (htransaction : m.transaction = ⟨false, UInt8.ofNat lease.index⟩) :
    ∃ e', e.step? (.run j) = some (e', [.returned j (.received (.ok ()))]) ∧
      arrival? lease ⟨e, .run j, [.returned j (.received (.ok ()))], e'⟩ = some m := by
  have hl : e.leaseIn? id = some lease := Entity.leaseIn?_eq ht
  have hflag : m.transaction.flag = false := by rw [htransaction]
  have hvalue : m.transaction.value.toNat = lease.index := by
    rw [htransaction]
    exact ho.incoming_value_toNat hl
  obtain ⟨incoming, -, hpost⟩ | ⟨_, hfull, -⟩ := ho.post hl m
  · rw [← hvalue] at hpost
    refine ⟨({ e with incoming } : Entity).remove j, ?_, ?_⟩
    · simp only [Entity.step?, Entity.run, hj, Entity.runReceiving, Entity.receiveMessage, hflag]
      cases m with
      | data t payload => cases hdata
      | ack t | error t cause => simp [hpost, Entity.finish]
    · rw [arrival?_posted hj hflag (hvalue ▸ ho.holder hl), if_pos rfl]
  · exact absurd hroom hfull

theorem not_isData_of_mem_arrivals (hrun : Run Entity.step? (.ofConfig config) h e)
    (hm : m ∈ arrivals h lease) : m.isData = false := by
  obtain ⟨tr, htr, harr⟩ := List.mem_filterMap.1 hm
  obtain ⟨front, back, rfl⟩ := List.append_of_mem htr
  obtain ⟨-, hs, -⟩ := hrun.split
  exact not_isData_of_arrival? (Entity.rule_of_step? hs) harr

/-- A timer that has run down and a message exclude each other only as far as the owner still looks for
messages. -/
theorem exclusive_of_run (hrun : Run Entity.step? (.ofConfig config) h e) : Exclusive h e where
  answer heq htime := acceptances_of_answer hrun heq htime
  acknowledgement heq htime hbefore := acceptances_of_acknowledgement hrun heq htime hbefore
  reply heq htime hbefore := arrivals_of_reply hrun heq htime hbefore
  outcome heq htime hret := outcome_of_timeout hrun heq htime hret
  gap := (attentive_of_run hrun).orderly.delivers_closing
  gapReply := (attentive_of_run hrun).orderly.delivers_servingClosing
  data _ hm := not_isData_of_mem_arrivals hrun hm

/-- A notice is sent and one is answered, and nobody acknowledges either. -/
def unacknowledged : List (Move Input) :=
  [.start (.send (.memoryAvailable 7)), .run 0, .sent 0 (.ok ()),
    .start (.receive (.data ⟨false, 0⟩ [6, 1])), .run 1, .run 1, .sent 1 (.ok ()), .run 2,
    .answered 2 (.ok none) ⟨2000, 1, 1, 0, 0, 0, 0⟩, .sent 2 (.ok ()), .elapse 20000, .expire 0,
    .expire 2, .sent 0 (.ok ()), .sent 2 (.ok ()), .elapse 20000]

/-- Both timers run down, and before the transactions are given back the acknowledgements come. -/
def acknowledgedBetween : List (Move Input) :=
  [.expire 0, .expire 2, .start (.receive (.ack ⟨true, 0⟩)), .run 3,
    .start (.receive (.ack ⟨false, 0⟩)), .run 4, .run 0, .run 2]

theorem exclusive_acknowledgedBetween :
    ∃ h e, replay Entity.step? (.ofConfig {}) (unacknowledged ++ acknowledgedBetween) =
        some (h, e) ∧ Exclusive h e ∧
      (h[16]?.bind (timeout? 0)) = some .acknowledgement ∧ acceptances h 0 = [.ack ⟨true, 0⟩] ∧
      consumptions h 0 = [] ∧ (h[17]?.bind (timeout? 2)) = some .acknowledgement ∧
      arrivals h ⟨0, 0⟩ = [.ack ⟨false, 0⟩] ∧ consumptions h 2 = [] := by
  have hall : (replay Entity.step? (.ofConfig {}) (unacknowledged ++ acknowledgedBetween)).any
      (fun r => (r.1[16]?.bind (timeout? 0)) == some .acknowledgement &&
        acceptances r.1 0 == [.ack ⟨true, 0⟩] && (consumptions r.1 0).isEmpty &&
        (r.1[17]?.bind (timeout? 2)) == some .acknowledgement &&
        arrivals r.1 ⟨0, 0⟩ == [.ack ⟨false, 0⟩] && (consumptions r.1 2).isEmpty) = true := by
    decide +kernel
  obtain ⟨h, e, hr, hrun, hc⟩ := exists_run_of_replay hall
  simp only [Bool.and_eq_true, beq_iff_eq, List.isEmpty_iff] at hc
  obtain ⟨⟨⟨⟨⟨htime, hacc⟩, hcons⟩, htime'⟩, harr⟩, hcons'⟩ := hc
  exact ⟨h, e, hr, exclusive_of_run hrun, htime, hacc, hcons, htime', harr, hcons'⟩

/-- A timer and a message do not exclude each other: what is delivered to a message to send, or to an
answer, between its timer and its end is lost. -/
theorem lost_acknowledgedBetween :
    (¬∀ config h e, Run Entity.step? (.ofConfig config) h e →
      ∀ id k tr k' timer, h = k ++ tr :: k' → timeout? id tr = some timer →
        acceptances h id = consumptions h id) ∧
    ¬∀ config h e, Run Entity.step? (.ofConfig config) h e →
      ∀ id k tr k' timer lease, h = k ++ tr :: k' → timeout? id tr = some timer →
        tr.before.leaseIn? id = some lease → arrivals h lease = consumptions h id := by
  have hall : (replay Entity.step? (.ofConfig {}) (unacknowledged ++ acknowledgedBetween)).any
      (fun r => (r.1[16]?.any fun tr => timeout? 0 tr == some .acknowledgement) &&
        (acceptances r.1 0 != consumptions r.1 0) &&
        (r.1[17]?.any fun tr => timeout? 2 tr == some .acknowledgement &&
          tr.before.leaseIn? 2 == some ⟨0, 0⟩) &&
        (arrivals r.1 ⟨0, 0⟩ != consumptions r.1 2)) = true := by
    decide +kernel
  obtain ⟨h, e, -, hrun, hc⟩ := exists_run_of_replay hall
  simp only [Bool.and_eq_true, Option.any_eq_true, beq_iff_eq, bne_iff_ne] at hc
  obtain ⟨⟨⟨⟨tr, htr, htime⟩, hlost⟩, tr', htr', htime', hl⟩, hlost'⟩ := hc
  refine ⟨fun hclaim => ?_, fun hclaim => ?_⟩
  · exact hlost (hclaim {} h e hrun 0 _ _ _ _ (eq_of_getElem? htr) htime)
  · exact hlost' (hclaim {} h e hrun 2 _ _ _ _ _ (eq_of_getElem? htr') htime' hl)

end

end ShortMessage.Control
