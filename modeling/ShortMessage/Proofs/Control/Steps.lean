import ShortMessage.Proofs.Control.Rules

/-!
# The rules are all that a control entity does

`Entity.rule_of_step?` says that every step of a control entity is one of `Entity.Rule`, with one
lemma for each kind of move; the invariants are proved from the rules.  The last section says which
tasks can always take a step.
-/

namespace ShortMessage.Control

open Transaction (TaskId Table Lease Move Event)

/-! ## Payloads -/

/-- Data carries the octets of its message. -/
theorem carrying_eq_ok {m : Relay.Message} {t : TransactionId} {data : Message}
    (hd : Message.carrying t m = .ok data) :
    ∃ payload, m.encode = .ok payload ∧ data = .data t payload := by
  rcases he : m.encode with fault | payload
  · simp [Message.carrying, he, bind, Except.bind] at hd
  · simp only [Message.carrying, he, bind, Except.bind, pure, Except.pure, Except.ok.injEq] at hd
    exact ⟨payload, rfl, hd.symm⟩

theorem carrying_eq_error {m : Relay.Message} {t : TransactionId} {fault : Fault}
    (hd : Message.carrying t m = .error fault) : m.encode = .error fault := by
  rcases he : m.encode with fault' | payload
  · simp only [Message.carrying, he, bind, Except.bind, Except.error.injEq] at hd
    exact congrArg _ hd
  · simp [Message.carrying, he, bind, Except.bind, pure, Except.pure] at hd

/-- What is taken for the answer to a request fits it. -/
theorem judgeAnswer_eq_ok {request answer : Relay.Message} {payload : Octets}
    (h : judgeAnswer request payload = .ok answer) :
    Relay.Message.ofOctets payload = .ok answer ∧ answer.isRequest = false ∧
      answer.direction = request.direction.reverse ∧ answer.reference = request.reference := by
  unfold judgeAnswer at h
  split at h
  · cases h
  · cases h
  · rename_i answer' hread
    split at h
    · cases h
    · rename_i hkind
      split at h
      · cases h
      · rename_i href
        cases h
        rw [not_or] at hkind
        exact ⟨hread, by simpa using hkind.1, by simpa using hkind.2, by simpa using href⟩

/-- No answer, however bad, is taken for a failure of the network. -/
theorem judgeAnswer_ne_networkFailure (request : Relay.Message) (payload : Octets) :
    judgeAnswer request payload ≠ .error .networkFailure := by
  unfold judgeAnswer
  repeat' split
  all_goals simp

namespace Entity

variable {e e' : Entity} {id : TaskId} {events : List (Event Message Result)}

/-! ## Every step is one of the rules -/

/-- There is no free transaction, or the data can not be written, or it is handed to the transport.
-/
theorem rule_of_openSession {m : Relay.Message} (ht : e.task? id = some (.sending (.opening m)))
    (h : e.openSession id m = some (e', events)) : Rule e (.run id) e' events := by
  unfold openSession at h
  split at h
  · rename_i hl
    cases h
    exact .act ht (.congested hl)
  · rename_i lease outgoing hl
    split at h
    · rename_i data hd
      cases h
      exact .act ht (.opened hl hd)
    · rename_i fault hd
      cases h
      exact .act ht (.unwritable hl hd)

/-- What becomes of a session after a message of the other side. -/
theorem follow_of_takeAnswer {s : Session} {m : Message} {e0 : Entity}
    (h : e0.takeAnswer id s m.reaction = some (e', events)) (hclock : e0.clock = e.clock)
    (hconfig : e0.config = e.config) : ∃ phase word, Follow e s true m phase word ∧
      e' = e0.put id (.sending phase) ∧ events = saying id word := by
  cases m with
  | data t payload =>
    simp only [takeAnswer, Message.reaction, concludeAnswer] at h
    split at h
    · rename_i answer hj
      cases h
      exact ⟨_, _, .answered rfl hj, rfl, rfl⟩
    · rename_i cause hj
      cases h
      exact ⟨_, _, .refused rfl hj, rfl, rfl⟩
  | ack t =>
    cases h
    rw [hclock, hconfig]
    exact ⟨_, _, .waits rfl, rfl, rfl⟩
  | error t cause =>
    cases h
    exact ⟨_, _, .ended, rfl, rfl⟩

/-- Before any acknowledgement has come, the answer to a request will do in its place. -/
theorem follow_of_acknowledge {s : Session} {m : Message} {e0 : Entity}
    (h : e0.acknowledge id s m.reaction = some (e', events)) (hclock : e0.clock = e.clock)
    (hconfig : e0.config = e.config) : ∃ phase word, Follow e s false m phase word ∧
      e' = e0.put id (.sending phase) ∧ events = saying id word := by
  cases m with
  | data t payload =>
    simp only [acknowledge, Message.reaction, concludeAnswer] at h
    split at h
    · rename_i hreq
      split at h
      · rename_i answer hj
        cases h
        exact ⟨_, _, .answered hreq hj, rfl, rfl⟩
      · rename_i cause hj
        cases h
        exact ⟨_, _, .refused hreq hj, rfl, rfl⟩
    · rename_i hreq
      cases h
      exact ⟨_, _, .arrived (by simpa using hreq) (by simp), rfl, rfl⟩
  | ack t =>
    simp only [acknowledge, Message.reaction] at h
    split at h
    · rename_i hreq
      cases h
      rw [hclock, hconfig]
      exact ⟨_, _, .waits hreq, rfl, rfl⟩
    · rename_i hreq
      cases h
      exact ⟨_, _, .arrived (by simpa using hreq) (by simp), rfl, rfl⟩
  | error t cause =>
    cases h
    exact ⟨_, _, .ended, rfl, rfl⟩

theorem rule_of_runSending {s : Sending} (ht : e.task? id = some (.sending s))
    (h : e.runSending id s = some (e', events)) : Rule e (.run id) e' events := by
  cases s with
  | opening m => exact rule_of_openSession ht h
  | delivering s handover =>
    cases handover with
    | transmitting repeated => cases h
    | awaiting repeated deadline =>
      simp only [runSending] at h
      split at h
      · rename_i m outgoing htake
        obtain ⟨phase, word, hf, rfl, rfl⟩ := follow_of_acknowledge (e := e) h rfl rfl
        exact .act ht (.delivered htake hf)
      · cases h
  | awaitingAnswer s deadline =>
    simp only [runSending] at h
    split at h
    · rename_i m outgoing htake
      obtain ⟨phase, word, hf, rfl, rfl⟩ := follow_of_takeAnswer (e := e) h rfl rfl
      exact .act ht (.took htake hf)
    · rename_i htake
      split at h
      · rename_i hrel
        cases h
        exact .act ht (.lapsed (Table.take?_eq_none_iff.1 htake) hrel)
      · cases h
  | expired s =>
    simp only [runSending] at h
    split at h
    · rename_i m outgoing hret
      obtain ⟨phase, word, hf, rfl, rfl⟩ := follow_of_takeAnswer (e := e) h rfl rfl
      have h1 : (e.outgoing.retire s.lease).1 = some m := by rw [hret]
      have h2 : (e.outgoing.retire s.lease).2 = outgoing := by rw [hret]
      rw [← h2]
      exact .act ht (.tookLate h1 hf)
    · rename_i outgoing hret
      have h1 : (e.outgoing.retire s.lease).1 = none := by rw [hret]
      have h2 : (e.outgoing.retire s.lease).2 = outgoing := by rw [hret]
      cases h
      rw [← h2]
      exact .act ht (.tookNothing h1)
  | concluding lease outcome => cases h
  | closing lease outcome =>
    cases h
    exact .act ht .closed

theorem rule_of_runServing {s : Serving} (ht : e.task? id = some (.serving s))
    (h : e.runServing id s = some (e', events)) : Rule e (.run id) e' events := by
  cases s with
  | accepted s =>
    simp only [runServing] at h
    split at h
    · rename_i call hc
      cases h
      exact .act ht (.called hc)
    · rename_i hc
      cases h
      exact .act ht (.uncalled hc)
  | handling s => cases h
  | delivering lease data handover =>
    cases handover with
    | transmitting repeated => cases h
    | awaiting repeated deadline =>
      simp only [runServing] at h
      split at h
      · rename_i m incoming htake
        cases h
        exact .act ht (.confirmed htake)
      · cases h
  | refusing lease => cases h
  | closing lease =>
    cases h
    exact .act ht .served

/-- A message that nobody waits for is answered with an error, unless it is one itself. -/
theorem rule_of_stray {m : Message} (ht : e.task? id = some (.receiving (.arrived m)))
    (hdata : m.transaction.flag = false → ∀ t payload, m ≠ .data t payload)
    {u : Transaction.Undelivered Message}
    (hpost : (if m.transaction.flag then e.outgoing else e.incoming).post
      m.transaction.value.toNat m = .error u)
    (h : e.stray id m = some (e', events)) : Rule e (.run id) e' events := by
  cases m with
  | data t payload =>
    cases h
    exact .act ht (.stray hpost hdata (by simp))
  | ack t =>
    cases h
    exact .act ht (.stray hpost hdata (by simp))
  | error t cause =>
    cases h
    exact .act ht (.strayError hpost)

theorem rule_of_receiveMessage {m : Message} (ht : e.task? id = some (.receiving (.arrived m)))
    (h : e.receiveMessage id m = some (e', events)) : Rule e (.run id) e' events := by
  unfold receiveMessage at h
  simp only at h
  split at h
  · rename_i hflag
    split at h
    · rename_i outgoing hp
      cases h
      exact .act ht (.posted hflag hp)
    · rename_i u hp
      refine rule_of_stray ht (fun hf => ?_) (u := u) (by rw [if_pos hflag]; exact hp) h
      rw [hflag] at hf
      cases hf
  · rename_i hflag
    have hflag : m.transaction.flag = false := by simpa using hflag
    split at h
    · rename_i t payload _
      unfold receiveData at h
      split at h
      · rename_i hheld
        cases h
        exact .act ht (.passedOver hflag hheld)
      · rename_i hheld
        have hheld : e.incoming.isHeld t.value.toNat = false := by simpa using hheld
        split at h
        · rename_i request hj
          cases h
          exact .act ht (.lookedAt hflag hheld hj)
        · rename_i cause hj
          cases h
          exact .act ht (.rejected hflag hheld hj)
    · rename_i hdata
      split at h
      · rename_i incoming hp
        cases h
        exact .act ht (.postedIncoming hflag hdata hp)
      · rename_i u hp
        exact rule_of_stray ht (fun _ => hdata) (u := u)
          (by rw [if_neg (by simp [hflag])]; exact hp) h

theorem rule_of_runReceiving {r : Receiving} (ht : e.task? id = some (.receiving r))
    (h : e.runReceiving id r = some (e', events)) : Rule e (.run id) e' events := by
  cases r with
  | octets s =>
    simp only [runReceiving, receiveOctets] at h
    split at h
    · rename_i m hm
      cases h
      exact .act ht (.read hm)
    · rename_i layer value hm
      split at h
      · rename_i t hhead
        cases h
        exact .act ht (.unknown hm hhead)
      · rename_i hhead
        cases h
        exact .act ht (.unknownStray hm fun t hs => hhead t hs)
    · rename_i fault hfault hm
      cases h
      exact .act ht (.unread hm fun layer value hf => hfault layer value hf)
  | arrived m => exact rule_of_receiveMessage ht h
  | opening t request =>
    simp only [runReceiving, openService] at h
    split at h
    · rename_i lease incoming hl
      cases h
      exact .act ht (.accepted hl)
    · rename_i hl
      cases h
      exact .act ht (.tooLate hl)
  | accepting service => cases h
  | withdrawing lease failure =>
    cases h
    exact .act ht .withdrawn
  | replying outcome => cases h

/-- What the transport says is news for the task that has handed it a message. -/
theorem rule_of_sent {result : Except Failure Unit} (h : e.sent id result = some (e', events)) :
    Rule e (.sent id result) e' events := by
  unfold Entity.sent at h
  split at h
  · rename_i s ht
    unfold sentSending at h
    split at h
    · split at h
      · cases h; exact .act ht .transmitted
      · cases h; exact .act ht .untransmitted
    · split at h
      · cases h; exact .act ht .concluded
      · cases h; exact .act ht .unconcluded
    · cases h
  · rename_i s ht
    unfold sentServing at h
    split at h
    · split at h
      · cases h; exact .act ht .replyTransmitted
      · cases h; exact .act ht .replyUntransmitted
    · cases h; exact .act ht .refusalTransmitted
    · cases h
  · rename_i r ht
    unfold sentReceiving at h
    split at h
    · split at h
      · cases h; exact .handedOver ht
      · cases h; exact .act ht .unaccepted
    · split at h
      · cases h; exact .act ht .replyDone
      · cases h; exact .act ht .replyFailed
    · cases h
  · cases h

theorem rule_of_answered {outcome : ShortMessage.Service.Outcome} {now : Timestamp}
    (h : e.answered id outcome now = some (e', events)) :
    Rule e (.answered id outcome now) e' events := by
  unfold Entity.answered at h
  split at h
  · rename_i s ht
    unfold reply at h
    simp only at h
    split at h
    · rename_i data hd
      cases h
      rcases ha : ShortMessage.Service.answer s.request outcome now with failure | answer
      · rw [ha] at hd
        cases hd
      · rcases hc : Message.carrying s.transaction answer with fault | data'
        · rw [ha] at hd
          simp only [bind, Except.bind, hc] at hd
          cases hd
        · rw [ha] at hd
          simp only [bind, Except.bind, hc] at hd
          cases hd
          exact .act ht (.replied ha hc)
    · rename_i failure hd
      cases h
      exact .act ht (.unreplied hd)
  · cases h

theorem rule_of_expire (h : e.expire id = some (e', events)) : Rule e (.expire id) e' events := by
  unfold expire at h
  split at h
  · rename_i s repeated deadline ht
    split at h
    · rename_i hd
      split at h
      · rename_i hr
        cases h
        exact .act ht (.repeated hd.1 hd.2 hr)
      · rename_i hr
        cases h
        exact .act ht (.gaveUp hd.1 hd.2 (Nat.not_lt.1 hr))
    · cases h
  · rename_i s deadline ht
    split at h
    · rename_i hd
      cases h
      exact .act ht (.expired hd.1 hd.2)
    · cases h
  · rename_i lease data repeated deadline ht
    split at h
    · rename_i hd
      split at h
      · rename_i hr
        cases h
        exact .act ht (.replyRepeated hd.1 hd.2 hr)
      · rename_i hr
        cases h
        exact .act ht (.replyGivenUp hd.1 hd.2 (Nat.not_lt.1 hr))
    · cases h
  · cases h

/-- A control entity does nothing but what the rules say. -/
theorem rule_of_step? {move : Move Input} (h : e.step? move = some (e', events)) :
    Rule e move e' events := by
  cases move with
  | start input => cases h; exact .start input
  | run id =>
    simp only [step?, run] at h
    split at h
    · rename_i ht; exact rule_of_runSending ht h
    · rename_i ht; exact rule_of_runServing ht h
    · rename_i ht; exact rule_of_runReceiving ht h
    · cases h
  | sent id result => exact rule_of_sent h
  | answered id outcome now => exact rule_of_answered h
  | expire id => exact rule_of_expire h
  | abort id =>
    simp only [step?, abort] at h
    split at h
    · cases h
    · rename_i task ht
      cases h
      exact .act ht .aborted
  | elapse duration => cases h; exact .elapsed duration

/-! ## Tasks that need not wait -/

/-- A message that has arrived can always be looked at. -/
theorem receiveMessage_ne_none (e : Entity) (m : Message) : e.receiveMessage id m ≠ none := by
  have hstray : e.stray id m ≠ none := by cases m <;> rintro ⟨⟩
  have hdata (t : TransactionId) (payload : Octets) : e.receiveData id t payload ≠ none := by
    unfold receiveData
    repeat' split
    all_goals rintro ⟨⟩
  simp only [receiveMessage]
  split
  · split
    · rintro ⟨⟩
    · exact hstray
  · split
    · exact hdata _ _
    · split
      · rintro ⟨⟩
      · exact hstray

theorem openService_ne_none (e : Entity) (t : TransactionId) (r : Relay.Message) :
    e.openService id t r ≠ none := by
  unfold openService
  split <;> rintro ⟨⟩

theorem openSession_ne_none (e : Entity) (m : Relay.Message) : e.openSession id m ≠ none := by
  unfold openSession
  repeat' split
  all_goals rintro ⟨⟩

theorem concludeAnswer_ne_none (e : Entity) (s : Session) (payload : Octets) :
    e.concludeAnswer id s payload ≠ none := by
  unfold concludeAnswer
  split <;> rintro ⟨⟩

theorem takeAnswer_ne_none (e : Entity) (s : Session) (reaction : Reaction) :
    e.takeAnswer id s reaction ≠ none := by
  cases reaction with
  | answered payload => exact concludeAnswer_ne_none e s payload
  | _ => rintro ⟨⟩

theorem acknowledge_ne_none (e : Entity) (s : Session) (reaction : Reaction) :
    e.acknowledge id s reaction ≠ none := by
  cases reaction with
  | ended cause => rintro ⟨⟩
  | acknowledged =>
    simp only [acknowledge]
    split <;> rintro ⟨⟩
  | answered payload =>
    simp only [acknowledge]
    split
    · exact concludeAnswer_ne_none e s payload
    · rintro ⟨⟩

theorem reply_ne_none (e : Entity) (service : Service) (outcome : ShortMessage.Service.Outcome)
    (now : Timestamp) : e.reply id service outcome now ≠ none := by
  simp only [reply]
  split <;> rintro ⟨⟩

theorem accepted_ne_none (e : Entity) (service : Service) :
    e.runServing id (.accepted service) ≠ none := by
  simp only [runServing]
  split <;> rintro ⟨⟩

end Entity

end ShortMessage.Control
