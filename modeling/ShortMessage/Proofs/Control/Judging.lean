import ShortMessage.Proofs.Codec.UnknownTypes
import ShortMessage.Proofs.Control.Consumption
import ShortMessage.Proofs.Control.Reception

/-!
# For which cause a payload is refused

Data on an idle transaction must be a request, and data that a request takes must be its answer.
Other data is refused, for a cause that says why.  An unknown type is a cause of its own.  Its fault
does not tell the type of the relay message from that of the transfer message in it, and so both are
refused alike.

* `UnfitRequest`, `UnfitAnswer` — the causes, by the octets of the payload alone
  (`judgeRequest_eq_error_iff`, `judgeAnswer_eq_error_iff`);
* `Entity.examined?`, `Entity.heard?` — the payload that is judged in the next step of a task, and
  what is said in the step (`says_iff_of_examined?`, `says_iff_of_heard?`);
* `judged_of_run` — in every run this is the last that the task says, and on an idle transaction it
  is all.
-/

namespace ShortMessage.Control

open Transaction
open Relay.Message (Untyped ReservedInside exists_unknownType_iff)

/-! ## Causes -/

/-- The payload cannot be read, and not because a type is unknown. -/
structure Malformed (s : Octets) : Prop where
  unreadable : ∃ fault, Relay.Message.ofOctets s = .error fault
  typed : ¬Untyped s
  typedInside : ¬ReservedInside s

/-- The payload is no request, and is refused for this cause. -/
inductive UnfitRequest (s : Octets) : Cause → Prop where
  | untyped : Untyped s → UnfitRequest s .messageNotCompatible
  | reservedInside : ReservedInside s → UnfitRequest s .messageNotCompatible
  | answer {m} : Relay.Message.ofOctets s = .ok m → m.isRequest = false →
      UnfitRequest s .messageNotCompatible
  | malformed : Malformed s → UnfitRequest s .semanticallyIncorrect

/-- The payload does not answer the request, and is refused for this cause. -/
inductive UnfitAnswer (request : Relay.Message) (s : Octets) : Cause → Prop where
  | untyped : Untyped s → UnfitAnswer request s .messageTypeNonExistent
  | reservedInside : ReservedInside s → UnfitAnswer request s .messageTypeNonExistent
  | malformed : Malformed s → UnfitAnswer request s .semanticallyIncorrect
  | incompatible {m} : Relay.Message.ofOctets s = .ok m →
      m.isRequest = true ∨ m.direction ≠ request.direction.reverse →
      UnfitAnswer request s .messageNotCompatible
  | otherReference {m} : Relay.Message.ofOctets s = .ok m → m.isRequest = false →
      m.direction = request.direction.reverse → m.reference ≠ request.reference →
      UnfitAnswer request s .invalidTransactionId

/-! ## States in which a payload is judged -/

/-- In its next step a task says this. -/
def Entity.Says (e : Entity) (id : TaskId) (m : Message) : Prop :=
  ∃ e', e.step? (.run id) = some (e', [.emitted id m])

/-- The data that a task looks at next, on a transaction of the other side that is idle. -/
def Entity.examined? (e : Entity) (id : TaskId) : Option (TransactionId × Octets) :=
  match e.task? id with
  | some (.receiving (.arrived (.data t payload))) =>
    if t.flag = false ∧ e.incoming.isHeld t.value.toNat = false then some (t, payload) else none
  | _ => none

/-- The session of a message that asks for an answer and has been handed over, so that data on its
transaction counts as the answer. -/
def Sending.inquiry? : Sending → Option Session
  | .delivering s (.awaiting _ _) => if s.message.isRequest then some s else none
  | .awaitingAnswer s _ | .expired s => some s
  | _ => none

/-- The data that a task takes next as the answer to the request of its session. -/
def Entity.heard? (e : Entity) (id : TaskId) : Option (Session × Octets) :=
  match e.task? id, e.next? id with
  | some (.sending phase), some (.data _ payload) => phase.inquiry?.map fun s => (s, payload)
  | _, _ => none

/-- What is said of payloads, in a history that leads to `e`. -/
structure Judged (h : List Transit) (e : Entity) : Prop where
  /-- Data that is handed in on an idle transaction is looked at next. -/
  handedIn : ∀ {t payload}, t.flag = false → e.incoming.isHeld t.value.toNat = false →
    ∃ e', e.step? (.start (.receive (.data t payload))) = some (e', []) ∧
      e'.examined? e.started = some (t, payload)
  /-- Data on an idle transaction is refused at once, for the cause for which it is no request; if
  it is one, nothing is said yet. -/
  request : ∀ {id t payload}, e.examined? id = some (t, payload) → ∀ {m}, e.Says id m ↔
    ∃ cause, UnfitRequest payload cause ∧ m = .error t.reverse cause
  /-- Data that a request takes is refused at once, for the cause for which it is no answer; if it
  is the answer it is acknowledged. -/
  answer : ∀ {id s payload}, e.heard? id = some (s, payload) → ∀ {m}, e.Says id m ↔
    ((∃ answer, judgeAnswer s.message payload = .ok answer) ∧ m = .ack s.data.transaction) ∨
      ∃ cause, UnfitAnswer s.message payload cause ∧ m = .error s.data.transaction cause
  /-- The refusal is all that is ever said of data on an idle transaction. -/
  refused : ∀ {tr id t payload}, tr ∈ h → tr.move = .run id →
    tr.before.examined? id = some (t, payload) →
    ∀ cause, emissions h id = [.error t.reverse cause] ↔ UnfitRequest payload cause
  /-- The refusal of an answer comes behind the copies of the request, and nothing behind it. -/
  unanswered : ∀ {tr id s payload}, tr ∈ h → tr.move = .run id →
    tr.before.heard? id = some (s, payload) → ∃ n, ∀ cause,
      emissions h id = List.replicate n s.data ++ [.error s.data.transaction cause] ↔
        UnfitAnswer s.message payload cause

section

variable {config : Config} {h k : List Transit} {e e' : Entity} {id : TaskId} {t : TransactionId}
  {s : Session} {payload : Octets} {request : Relay.Message} {cause : Cause} {m : Message}
  {move : Move Input} {events : List (Event Message Result)} {task : Task} {task' : Option Task}
  {outgoing incoming : Table Message Unit}

/-! ## Judging -/

theorem malformed_of_ofOctets {fault : Fault}
    (hread : Relay.Message.ofOctets payload = .error fault)
    (hfault : ∀ layer value, fault ≠ .unknownType layer value) : Malformed payload := by
  have htyped : ¬(Untyped payload ∨ ReservedInside payload) := by
    rw [← exists_unknownType_iff, hread]
    rintro ⟨layer, value, heq⟩
    exact hfault layer value (Except.error.inj heq)
  rw [not_or] at htyped
  exact ⟨⟨fault, hread⟩, htyped.1, htyped.2⟩

theorem Malformed.ofOctets (hm : Malformed payload) : ∃ fault,
    Relay.Message.ofOctets payload = .error fault ∧
      ∀ layer value, fault ≠ .unknownType layer value := by
  obtain ⟨fault, hread⟩ := hm.unreadable
  refine ⟨fault, hread, ?_⟩
  rintro layer value rfl
  obtain huntyped | hreserved := exists_unknownType_iff.1 ⟨layer, value, hread⟩
  · exact hm.typed huntyped
  · exact hm.typedInside hreserved

/-- An unknown type gives the same cause, in whichever layer it stands. -/
theorem judgeRequest_of_unknownType (h : Untyped payload ∨ ReservedInside payload) :
    judgeRequest payload = .error .messageNotCompatible := by
  obtain ⟨layer, value, hread⟩ := exists_unknownType_iff.2 h
  rw [judgeRequest, hread]

theorem judgeAnswer_of_unknownType (h : Untyped payload ∨ ReservedInside payload) :
    judgeAnswer request payload = .error .messageTypeNonExistent := by
  obtain ⟨layer, value, hread⟩ := exists_unknownType_iff.2 h
  rw [judgeAnswer, hread]

/-- What is refused as a request, and for which cause. -/
theorem judgeRequest_eq_error_iff :
    judgeRequest payload = .error cause ↔ UnfitRequest payload cause := by
  constructor
  · intro hj
    unfold judgeRequest at hj
    split at hj
    · rename_i layer value hread
      cases hj
      obtain huntyped | hreserved := exists_unknownType_iff.1 ⟨layer, value, hread⟩
      · exact .untyped huntyped
      · exact .reservedInside hreserved
    · rename_i fault hfault hread
      cases hj
      exact .malformed (malformed_of_ofOctets hread hfault)
    · rename_i m hread
      split at hj
      · cases hj
      · rename_i hkind
        cases hj
        exact .answer hread (by simpa using hkind)
  · rintro (huntyped | hreserved | ⟨hread, hkind⟩ | hmalformed)
    · exact judgeRequest_of_unknownType (.inl huntyped)
    · exact judgeRequest_of_unknownType (.inr hreserved)
    · simp [judgeRequest, hread, hkind]
    · obtain ⟨fault, hread, hfault⟩ := hmalformed.ofOctets
      rw [judgeRequest, hread]
      cases fault with
      | unknownType layer value => exact absurd rfl (hfault layer value)
      | _ => rfl

/-- What is refused as an answer, and for which cause. -/
theorem judgeAnswer_eq_error_iff :
    judgeAnswer request payload = .error cause ↔ UnfitAnswer request payload cause := by
  constructor
  · intro hj
    unfold judgeAnswer at hj
    split at hj
    · rename_i layer value hread
      cases hj
      obtain huntyped | hreserved := exists_unknownType_iff.1 ⟨layer, value, hread⟩
      · exact .untyped huntyped
      · exact .reservedInside hreserved
    · rename_i fault hfault hread
      cases hj
      exact .malformed (malformed_of_ofOctets hread hfault)
    · rename_i m hread
      split at hj
      · rename_i hkind
        cases hj
        exact .incompatible hread hkind
      · rename_i hkind
        obtain ⟨hrequest, hdirection⟩ := not_or.1 hkind
        split at hj
        · rename_i href
          cases hj
          exact .otherReference hread (by simpa using hrequest) (by simpa using hdirection) href
        · cases hj
  · rintro (huntyped | hreserved | hmalformed | ⟨hread, hkind⟩ |
      ⟨hread, hrequest, hdirection, href⟩)
    · exact judgeAnswer_of_unknownType (.inl huntyped)
    · exact judgeAnswer_of_unknownType (.inr hreserved)
    · obtain ⟨fault, hread, hfault⟩ := hmalformed.ofOctets
      rw [judgeAnswer, hread]
      cases fault with
      | unknownType layer value => exact absurd rfl (hfault layer value)
      | _ => rfl
    · simp only [judgeAnswer, hread]
      rw [if_pos hkind]
    · simp [judgeAnswer, hread, hrequest, hdirection, href]

/-! ## The step in which a payload is judged -/

theorem Entity.examined?_eq_some (he : e.examined? id = some (t, payload)) :
    e.task? id = some (.receiving (.arrived (.data t payload))) ∧ t.flag = false ∧
      e.incoming.isHeld t.value.toNat = false := by
  unfold Entity.examined? at he
  split at he
  · rename_i ht
    split at he
    · rename_i hidle
      cases he
      exact ⟨ht, hidle⟩
    · cases he
  · cases he

/-- A task that was just started for data looks at it. -/
theorem Entity.examined?_spawn (hf : e.task? e.started = none) (hflag : t.flag = false)
    (hidle : e.incoming.isHeld t.value.toNat = false) :
    (e.spawn (.receiving (.arrived (.data t payload)))).examined? e.started =
      some (t, payload) := by
  unfold Entity.examined?
  rw [Entity.task?_spawn_self hf]
  exact if_pos ⟨hflag, hidle⟩

theorem Entity.heard?_eq_some (hh : e.heard? id = some (s, payload)) :
    ∃ phase t, e.task? id = some (.sending phase) ∧ phase.inquiry? = some s ∧
      e.next? id = some (.data t payload) := by
  unfold Entity.heard? at hh
  split at hh
  · rename_i phase t _ ht hnext
    obtain ⟨_, hs, heq⟩ := Option.map_eq_some_iff.1 hh
    cases heq
    exact ⟨phase, t, ht, hs, hnext⟩
  · cases hh

/-- The next step of a task that looks at data depends on the payload alone. -/
theorem Entity.step?_of_examined? (he : e.examined? id = some (t, payload)) :
    e.step? (.run id) = match judgeRequest payload with
      | .ok request => e.become id (.receiving (.opening t request))
      | .error cause => e.reject id t.reverse cause := by
  obtain ⟨ht, hflag, hidle⟩ := Entity.examined?_eq_some he
  cases hj : judgeRequest payload <;>
    simp [Entity.step?, Entity.run, ht, Entity.runReceiving, Entity.receiveMessage,
      Message.transaction, hflag, Entity.receiveData, hidle, hj]

/-- Of data that is no request nothing is said but its cause, on the transaction that it came in on.
-/
theorem Entity.says_iff_of_examined? (he : e.examined? id = some (t, payload)) :
    e.Says id m ↔ ∃ cause, UnfitRequest payload cause ∧ m = .error t.reverse cause := by
  simp only [Entity.Says, Entity.step?_of_examined? he, ← judgeRequest_eq_error_iff]
  cases judgeRequest payload with
  | ok request => simp [Entity.become]
  | error cause => simp [Entity.reject, Entity.emit, eq_comm]

/-- Whether the answer came before the acknowledgement, in time or too late, it is judged alike. -/
theorem Entity.step?_of_heard? (hh : e.heard? id = some (s, payload)) : ∃ outgoing,
    e.step? (.run id) = ({ e with outgoing } : Entity).concludeAnswer id s payload := by
  obtain ⟨phase, t, ht, hs, hnext⟩ := Entity.heard?_eq_some hh
  have htake (hm : (e.outgoing.pending s.lease).head? = some (.data t payload)) :
      ∃ outgoing, e.outgoing.take? s.lease = some (.data t payload, outgoing) := by
    obtain ⟨rest, hrest⟩ := List.head?_eq_some_iff.1 hm
    exact ⟨_, Table.take?_of_pending hrest⟩
  cases phase with
  | delivering s' handover =>
    cases handover with
    | transmitting repeated => cases hs
    | awaiting repeated deadline =>
      simp only [Sending.inquiry?, Option.ite_none_right_eq_some, Option.some.injEq] at hs
      obtain ⟨hrequest, rfl⟩ := hs
      obtain ⟨outgoing, htake⟩ := htake (by simpa [Entity.next?, ht] using hnext)
      exact ⟨outgoing, by simp [Entity.step?, Entity.run, ht, Entity.runSending, htake,
        Entity.acknowledge, Message.reaction, hrequest]⟩
  | awaitingAnswer s' deadline =>
    cases hs
    obtain ⟨outgoing, htake⟩ := htake (by simpa [Entity.next?, ht] using hnext)
    exact ⟨outgoing, by simp [Entity.step?, Entity.run, ht, Entity.runSending, htake,
      Entity.takeAnswer, Message.reaction]⟩
  | expired s' =>
    cases hs
    obtain ⟨outgoing, htake⟩ := htake (by simpa [Entity.next?, ht] using hnext)
    exact ⟨outgoing.release s.lease, by simp [Entity.step?, Entity.run, ht, Entity.runSending,
      Table.retire, htake, Entity.takeAnswer, Message.reaction]⟩
  | opening | concluding | closing => cases hs

theorem Entity.says_iff_of_heard? (hh : e.heard? id = some (s, payload)) : e.Says id m ↔
    ((∃ answer, judgeAnswer s.message payload = .ok answer) ∧ m = .ack s.data.transaction) ∨
      ∃ cause, UnfitAnswer s.message payload cause ∧ m = .error s.data.transaction cause := by
  obtain ⟨outgoing, hstep⟩ := Entity.step?_of_heard? hh
  simp only [Entity.Says, hstep, ← judgeAnswer_eq_error_iff, Entity.concludeAnswer]
  cases judgeAnswer s.message payload with
  | ok answer => simp [Entity.emit, eq_comm]
  | error cause => simp [Entity.emit, eq_comm]

/-! ## What is said before and after -/

/-- The phases of a task that has said all it will. -/
def Task.isSettled : Task → Bool
  | .sending (.concluding _ _) | .sending (.closing _ _) | .receiving (.accepting _)
  | .receiving (.replying _) | .receiving (.withdrawing _ _) => true
  | _ => false

theorem Entity.Act.of_settled (ha : Entity.Act e id move task task' outgoing incoming events)
    (hs : task.isSettled = true) : events.filterMap (·.emittedBy? id) = [] ∧
      ∀ next, task' = some next → next.isSettled = true := by
  cases ha with
  | closed | withdrawn | replyDone | replyFailed | aborted => exact ⟨rfl, by rintro _ ⟨⟩⟩
  | concluded | unconcluded | unaccepted =>
    refine ⟨rfl, fun next hnext => ?_⟩
    cases hnext
    rfl
  | _ => cases hs

theorem closed_settled : Entity.Closed fun task => task.isSettled = true :=
  fun hs ha => (ha.of_settled hs).2 _ rfl

theorem Entity.Rule.silent_of_settled (hr : Entity.Rule e move e' events)
    (hp : Entity.Past (fun task => task.isSettled = true) e id) :
    events.filterMap (·.emittedBy? id) = [] := by
  by_cases hid : actor? move = some id
  · obtain ⟨task, ht⟩ := hr.exists_task hid
    obtain ⟨_, _, _, ha, -⟩ | ⟨_, -, rfl, -⟩ := hr.self hid ht
    · exact (ha.of_settled (hp.2 task ht)).1
    · rfl
  · exact hr.emits_nothing hid

/-- A task that has said all it will is silent for the rest of a run. -/
theorem silent_of_settled (hrun : Run Entity.step? e k e') (ho : e.Orderly)
    (hp : Entity.Past (fun task => task.isSettled = true) e id) : emissions k id = [] := by
  suffices e'.Orderly ∧ Entity.Past (fun task => task.isSettled = true) e' id ∧
      emissions k id = [] from this.2.2
  induction hrun with
  | rest => exact ⟨ho, hp, rfl⟩
  | step _ hs ih =>
    obtain ⟨ho, hp, hem⟩ := ih
    have hr := Entity.rule_of_step? hs
    refine ⟨ho.step hr, hp.step closed_settled ho hr, ?_⟩
    rw [emissions_snoc, hem, hr.silent_of_settled hp]
    rfl

/-- A request that is looked for a slot for is acknowledged, if anything is said of it. -/
theorem said_of_opening (hrun : Run Entity.step? e k e') (ho : e.Orderly)
    (ht : e.task? id = some (.receiving (.opening t request))) :
    emissions k id = [] ∨ emissions k id = [.ack t.reverse] := by
  suffices e'.Orderly ∧ id < e'.started ∧
      (e'.task? id = some (.receiving (.opening t request)) ∧ emissions k id = [] ∨
        Entity.Past (fun task => task.isSettled = true) e' id ∧
          (emissions k id = [] ∨ emissions k id = [.ack t.reverse])) by
    obtain ⟨-, -, ⟨-, hem⟩ | ⟨-, hem⟩⟩ := this
    · exact .inl hem
    · exact hem
  induction hrun with
  | rest => exact ⟨ho, ho.lt_started ht, .inl ⟨ht, rfl⟩⟩
  | @step k u v move events hfront hs ih =>
    obtain ⟨hu, hlt, hcase⟩ := ih
    have hr := Entity.rule_of_step? hs
    have hlt' := Nat.lt_of_lt_of_le hlt hr.started_le
    refine ⟨hu.step hr, hlt', ?_⟩
    rw [emissions_snoc]
    obtain ⟨ht, hem⟩ | ⟨hp, hem⟩ := hcase
    · rw [hem, List.nil_append]
      by_cases hid : actor? move = some id
      · obtain ⟨task', outgoing, incoming, ha, rfl⟩ | ⟨_, ⟨⟩, -⟩ := hr.self hid ht
        have hpast (hsettled : ∀ next, task' = some next → next.isSettled = true) :
            Entity.Past (fun task => task.isSettled = true)
              (u.settle id task' outgoing incoming) id := by
          refine ⟨hlt', fun next hnext => hsettled next ?_⟩
          rwa [Entity.task?_settle _ _ _ ht, if_pos rfl] at hnext
        right
        cases ha with
        | accepted | tooLate =>
          exact ⟨hpast (by rintro _ ⟨⟩; rfl), .inr (by simp [Event.emittedBy?])⟩
        | aborted => exact ⟨hpast (by rintro _ ⟨⟩), .inl rfl⟩
      · rw [hr.emits_nothing hid, hr.task?_of_ne hu hid hlt]
        exact .inl ⟨ht, rfl⟩
    · rw [hr.silent_of_settled hp, List.append_nil]
      exact .inr ⟨hp.step closed_settled hu hr, hem⟩

/-- Until its outcome is known a message to send has said nothing but copies of its data. -/
def Copied (h : List Transit) (id : TaskId) : Sending → Prop
  | .opening _ => emissions h id = []
  | .delivering s _ | .awaitingAnswer s _ | .expired s =>
    ∃ n, emissions h id = List.replicate n s.data
  | .concluding _ _ | .closing _ _ => True

theorem Copied.step {phase phase' : Sending} (hc : Copied h id phase)
    (ha : Entity.Act e id move (.sending phase) (some (.sending phase')) outgoing incoming events) :
    Copied (h ++ [⟨e, move, events, e'⟩]) id phase' := by
  generalize hk : some (Task.sending phase') = task' at ha
  cases ha with
  | opened =>
    cases hk
    have hnone : emissions h id = [] := hc
    exact ⟨1, by simp [emissions_snoc, hnone, Event.emittedBy?]⟩
  | repeated =>
    cases hk
    obtain ⟨n, hem⟩ := hc
    exact ⟨n + 1, by simp [emissions_snoc, hem, Event.emittedBy?, List.replicate_succ']⟩
  | delivered _ hf | took _ hf | tookLate _ hf =>
    cases hk
    obtain ⟨n, hem⟩ := hc
    cases hf with
    | waits => exact ⟨n, by simp [emissions_snoc, hem, Entity.saying]⟩
    | ended | arrived | answered | refused => trivial
  | transmitted | lapsed | expired =>
    cases hk
    obtain ⟨n, hem⟩ := hc
    exact ⟨n, by simp [emissions_snoc, hem]⟩
  | unwritable | tookNothing | untransmitted | concluded | unconcluded | gaveUp =>
    cases hk
    trivial
  | _ => cases hk

/-- However long a message waits for its outcome, only copies of it were sent. -/
theorem copied_of_run (hrun : Run Entity.step? (.ofConfig config) h e) {phase : Sending}
    (ht' : e.task? id = some (.sending phase)) : Copied h id phase := by
  induction hrun generalizing phase with
  | rest => cases ht'
  | @step h u v move events hfront hs ih =>
    have hv := vocal_of_run hfront
    have hr := Entity.rule_of_step? hs
    by_cases hid : actor? move = some id
    · obtain ⟨_, _, _, ht, ha, rfl⟩ := hr.sending_self hid ht'
      exact (ih ht).step ha
    · have hsame : emissions (h ++ [⟨u, move, events, v⟩]) id = emissions h id := by
        rw [emissions_snoc, hr.emits_nothing hid, List.append_nil]
      obtain ht | ⟨m, -, rfl, rfl⟩ := hr.sending_of_ne hv.orderly hid ht'
      · unfold Copied
        rw [hsame]
        exact ih ht
      · exact hsame.trans (hv.fresh (Nat.le_refl _))

/-! ## All that is said -/

/-- In a whole run too, one error is all that is said of data that is no request. -/
theorem emissions_of_examined? {tr : Transit} (hrun : Run Entity.step? (.ofConfig config) h e)
    (htr : tr ∈ h) (hmove : tr.move = .run id) (he : tr.before.examined? id = some (t, payload))
    (cause : Cause) : emissions h id = [.error t.reverse cause] ↔ UnfitRequest payload cause := by
  obtain ⟨front, back, rfl⟩ := List.append_of_mem htr
  obtain ⟨hfront, hs, hback⟩ := hrun.split
  have ho := (vocal_of_run hfront).orderly
  have ho' := ho.step (Entity.rule_of_step? hs)
  obtain ⟨htask, -⟩ := Entity.examined?_eq_some he
  have hbefore : emissions front id = [] := brief_of_run hfront htask
  have hlt : id < tr.after.started :=
    Nat.lt_of_lt_of_le (ho.lt_started htask) (Entity.rule_of_step? hs).started_le
  rw [emissions_append, emissions_cons, hbefore, List.nil_append, ← judgeRequest_eq_error_iff]
  rw [hmove, Entity.step?_of_examined? he] at hs
  cases hj : judgeRequest payload with
  | ok request =>
    rw [hj] at hs
    obtain ⟨hafter, hevents⟩ := Prod.mk.inj (Option.some.inj hs)
    have ht : tr.after.task? id = some (.receiving (.opening t request)) := by
      rw [← hafter]
      exact Entity.task?_put_self htask
    rw [← hevents]
    obtain hem | hem := said_of_opening hback ho' ht <;> simp [hem]
  | error cause' =>
    rw [hj] at hs
    obtain ⟨hafter, hevents⟩ := Prod.mk.inj (Option.some.inj hs)
    have ht : tr.after.task? id = some (.receiving (.replying (.error (.control cause')))) := by
      rw [← hafter]
      exact Entity.task?_put_self htask
    have hsilent : emissions back id = [] := by
      refine silent_of_settled hback ho' ⟨hlt, fun task ht' => ?_⟩
      rw [ht] at ht'
      cases ht'
      rfl
    rw [← hevents, hsilent]
    simp [Event.emittedBy?]

theorem Copied.of_inquiry {phase : Sending} (hc : Copied h id phase)
    (hs : phase.inquiry? = some s) : ∃ n, emissions h id = List.replicate n s.data := by
  cases phase with
  | delivering s' handover =>
    cases handover with
    | transmitting repeated => cases hs
    | awaiting repeated deadline =>
      simp only [Sending.inquiry?, Option.ite_none_right_eq_some, Option.some.injEq] at hs
      obtain ⟨-, rfl⟩ := hs
      exact hc
  | awaitingAnswer s' deadline | expired s' =>
    cases hs
    exact hc
  | opening | concluding | closing => cases hs

/-- When an answer is refused, the error is all that a task says behind the copies of its data. -/
theorem emissions_of_heard? {tr : Transit} (hrun : Run Entity.step? (.ofConfig config) h e)
    (htr : tr ∈ h) (hmove : tr.move = .run id) (hh : tr.before.heard? id = some (s, payload)) :
    ∃ n, ∀ cause,
      emissions h id = List.replicate n s.data ++ [.error s.data.transaction cause] ↔
        UnfitAnswer s.message payload cause := by
  obtain ⟨front, back, rfl⟩ := List.append_of_mem htr
  obtain ⟨hfront, hs, hback⟩ := hrun.split
  have ho := (vocal_of_run hfront).orderly
  have hr := Entity.rule_of_step? hs
  obtain ⟨outgoing, hstep⟩ := Entity.step?_of_heard? hh
  obtain ⟨phase, t, ht, hinquiry, -⟩ := Entity.heard?_eq_some hh
  obtain ⟨n, hcopies⟩ := (copied_of_run hfront ht).of_inquiry hinquiry
  have hlt : id < tr.after.started := Nat.lt_of_lt_of_le (ho.lt_started ht) hr.started_le
  -- the last word is with the transport, and nothing comes behind it
  have hlast {outcome : Outcome} {word : Message} (hconcluded : some (tr.after, tr.events) =
      ({ tr.before with outgoing } : Entity).emit id word
        (.sending (.concluding s.lease outcome))) :
      emissions (front ++ tr :: back) id = List.replicate n s.data ++ [word] := by
    obtain ⟨hafter, hevents⟩ := Prod.mk.inj (Option.some.inj hconcluded)
    have hsilent : emissions back id = [] := by
      refine silent_of_settled hback (ho.step hr) ⟨hlt, fun task htask => ?_⟩
      rw [hafter, Entity.task?_put_self ht] at htask
      cases htask
      rfl
    rw [emissions_append, emissions_cons, hcopies, hsilent, hevents]
    simp [Event.emittedBy?]
  rw [hmove, hstep, Entity.concludeAnswer] at hs
  refine ⟨n, fun cause => ?_⟩
  rw [← judgeAnswer_eq_error_iff]
  cases hj : judgeAnswer s.message payload with
  | ok answer =>
    rw [hj] at hs
    rw [hlast hs.symm]
    simp
  | error cause' =>
    rw [hj] at hs
    rw [hlast hs.symm]
    simp

/-- Whatever goes on, a payload that is no request, or no answer, is refused for the cause that its
octets give, and for no other. -/
theorem judged_of_run (hrun : Run Entity.step? (.ofConfig config) h e) : Judged h e where
  handedIn hflag hidle := ⟨_, rfl, Entity.examined?_spawn
    ((vocal_of_run hrun).orderly.fresh (Nat.le_refl _)) hflag hidle⟩
  request he := Entity.says_iff_of_examined? he
  answer hh := Entity.says_iff_of_heard? hh
  refused htr hmove he := emissions_of_examined? hrun htr hmove he
  unanswered htr hmove hh := emissions_of_heard? hrun htr hmove hh

/-- Data towards the centre whose transfer message has the reserved type. -/
def reservedData : Octets := [0x00, 1, 0, 1, 0x91, 1, 3]

/-- An acknowledgement towards the mobile station whose report has the reserved type. -/
def reservedReport : Octets := [0x03, 7, 0x41, 1, 3]

/-- A notice is with the other side, and a transfer message of the reserved type comes in twice: in
the answer to the notice, and in data on an idle transaction. -/
def reservedTwice : List (Move Input) :=
  [.start (.send (.memoryAvailable 7)), .run 0, .sent 0 (.ok ()),
    .start (.receive (.data ⟨true, 0⟩ reservedReport)), .run 1,
    .start (.receive (.data ⟨false, 3⟩ reservedData))]

/-- The session of the notice. -/
def noticeSession : Session := ⟨.memoryAvailable 7, ⟨0, 0⟩, .data ⟨false, 0⟩ [6, 7]⟩

/-- Both are refused as if the type of the relay message were unknown. -/
theorem judged_reservedTwice : ∃ h e k t,
    replay Entity.step? (.ofConfig {}) reservedTwice = some (h, e) ∧ Judged h e ∧
      e.heard? 0 = some (noticeSession, reservedReport) ∧
      e.examined? 2 = some (⟨false, 3⟩, reservedData) ∧
    replay Entity.step? (.ofConfig {}) (reservedTwice ++ [.run 0, .run 2]) = some (k, t) ∧
      Judged k t ∧ emissions k 0 = [noticeSession.data, .error ⟨false, 0⟩ .messageTypeNonExistent] ∧
      emissions k 2 = [.error ⟨true, 3⟩ .messageNotCompatible] := by
  have hjudging : (replay Entity.step? (.ofConfig {}) reservedTwice).any (fun r =>
      r.2.heard? 0 == some (noticeSession, reservedReport) &&
        r.2.examined? 2 == some (⟨false, 3⟩, reservedData)) = true := by
    decide +kernel
  have hjudged : (replay Entity.step? (.ofConfig {}) (reservedTwice ++ [.run 0, .run 2])).any
      (fun r =>
        emissions r.1 0 == [noticeSession.data, .error ⟨false, 0⟩ .messageTypeNonExistent] &&
        emissions r.1 2 == [.error ⟨true, 3⟩ .messageNotCompatible]) = true := by
    decide +kernel
  obtain ⟨h, e, hr, hrun, hc⟩ := exists_run_of_replay hjudging
  obtain ⟨k, t, hr', hrun', hc'⟩ := exists_run_of_replay hjudged
  simp only [Bool.and_eq_true, beq_iff_eq] at hc hc'
  exact ⟨h, e, k, t, hr, judged_of_run hrun, hc.1, hc.2, hr', judged_of_run hrun', hc'.1, hc'.2⟩

/-- The cause is not chosen by the type of the relay message alone: neither is data on an idle
transaction refused as incompatible only if its own type is unknown or it is an answer, nor is data
that a request takes refused for its type only if that is unknown, and malformed in all other cases
in which it cannot be read. -/
theorem misjudged_reservedTwice :
    (¬∀ config h e, Run Entity.step? (.ofConfig config) h e →
      ∀ id t payload, e.examined? id = some (t, payload) → t.value ≤ 7 →
        (e.Says id (.error t.reverse .messageNotCompatible) ↔ Untyped payload ∨
          ∃ m, Relay.Message.ofOctets payload = .ok m ∧ m.isRequest = false) ∧
        ((∃ fault, Relay.Message.ofOctets payload = .error fault) → ¬Untyped payload →
          e.Says id (.error t.reverse .semanticallyIncorrect))) ∧
    ¬∀ config h e, Run Entity.step? (.ofConfig config) h e →
      ∀ id s payload, e.heard? id = some (s, payload) →
        (∃ fault, Relay.Message.ofOctets payload = .error fault) →
        (e.Says id (.error s.data.transaction .messageTypeNonExistent) ↔ Untyped payload) ∧
        (¬Untyped payload → e.Says id (.error s.data.transaction .semanticallyIncorrect)) := by
  have hall : (replay Entity.step? (.ofConfig {}) reservedTwice).any (fun r =>
      r.2.heard? 0 == some (noticeSession, reservedReport) &&
        r.2.examined? 2 == some (⟨false, 3⟩, reservedData)) = true := by
    decide +kernel
  have hdata : Relay.Message.ofOctets reservedData = .error (.unknownType .transfer 3) := by
    decide +kernel
  have hreport : Relay.Message.ofOctets reservedReport = .error (.unknownType .transfer 3) := by
    decide +kernel
  obtain ⟨h, e, -, hrun, hc⟩ := exists_run_of_replay hall
  simp only [Bool.and_eq_true, beq_iff_eq] at hc
  obtain ⟨hheard, hexamined⟩ := hc
  have hcompatible : ¬Untyped reservedData := by
    rintro ⟨_, _, ⟨⟩, htype⟩
    exact absurd htype (by decide)
  have hexistent : ¬Untyped reservedReport := by
    rintro ⟨_, _, ⟨⟩, htype⟩
    exact absurd htype (by decide)
  refine ⟨fun hclaim => ?_, fun hclaim => ?_⟩
  · have hsays := (Entity.says_iff_of_examined? hexamined (m := .error _ .messageNotCompatible)).2
      ⟨_, judgeRequest_eq_error_iff.1 (by rw [judgeRequest, hdata]), rfl⟩
    obtain huntyped | ⟨m, hread, -⟩ :=
      (hclaim {} h e hrun 2 _ _ hexamined (by decide)).1.1 hsays
    · exact hcompatible huntyped
    · rw [hdata] at hread
      cases hread
  · have hsays := (Entity.says_iff_of_heard? hheard (m := .error _ .messageTypeNonExistent)).2
      (.inr ⟨_, judgeAnswer_eq_error_iff.1 (by rw [judgeAnswer, hreport]), rfl⟩)
    exact hexistent ((hclaim {} h e hrun 0 _ _ hheard ⟨_, hreport⟩).1.1 hsays)

end

end ShortMessage.Control
