import ShortMessage.Proofs.Codec.Relay
import ShortMessage.Proofs.Link.System

/-!
# What is read of requests and answers

A request that is written is a request for whoever reads it, and the application can be asked about
it.  An answer that is written is an answer to what was asked, though neither side sees the message
of the other one, only what is read of it.
-/

namespace ShortMessage.Link

open Control

variable {m request : Relay.Message} {octets : Octets}

/-! ## Requests -/

theorem Reads.alike (h : Reads m request) : m.Alike request := by
  obtain ⟨octets, hm, hr⟩ := h
  obtain ⟨request', hr', halike⟩ := Relay.Message.ofOctets_encode hm
  rw [hr] at hr'
  cases hr'
  exact halike

theorem judgeRequest_eq_ok : judgeRequest octets = .ok request ↔
    Relay.Message.ofOctets octets = .ok request ∧ request.isRequest = true := by
  unfold judgeRequest
  split
  · rename_i h
    simp [h]
  · rename_i hread
    simp [hread]
  · rename_i r h
    rw [h]
    cases hr : r.isRequest with
    | false =>
      simp only [Bool.false_eq_true, if_false, reduceCtorEq, Except.ok.injEq, false_iff, not_and]
      rintro rfl
      simp [hr]
    | true =>
      simp only [if_true, Except.ok.injEq]
      exact ⟨fun h => ⟨h, h ▸ hr⟩, fun h => h.1⟩

/-- Nobody refuses a request that somebody has written. -/
theorem judgeRequest_of_encode (hm : m.encode = .ok octets) (hreq : m.isRequest = true) :
    ∃ request, judgeRequest octets = .ok request := by
  obtain ⟨request, hr, halike⟩ := Relay.Message.ofOctets_encode hm
  exact ⟨request, judgeRequest_eq_ok.2 ⟨hr, halike.isRequest.trans hreq⟩⟩

theorem call?_of_isRequest (hreq : request.isRequest = true) :
    ∃ call, Service.call? request = some call := by
  cases request with
  | data | memoryAvailable => exact ⟨_, rfl⟩
  | ack | error => cases hreq

/-! ## Answers -/

variable {outcome : Service.Outcome} {now : Timestamp} {answer : Relay.Message}

/-- An answer travels the other way, under the same reference. -/
theorem answer_eq_ok (h : Service.answer request outcome now = .ok answer) :
    answer.isRequest = false ∧ answer.direction = request.direction.reverse ∧
      answer.reference = request.reference := by
  cases outcome with
  | error failure =>
    cases failure with
    | relay cause diagnostic report =>
      cases report with
      | none =>
        cases h
        exact ⟨rfl, rfl, rfl⟩
      | some report =>
        obtain ⟨_, -, h⟩ := bind_eq_ok.1 h
        cases h
        exact ⟨rfl, rfl, rfl⟩
    | _ => cases h
  | ok report =>
    cases request with
    | data reference centre m =>
      obtain ⟨_, -, h⟩ := bind_eq_ok.1 h
      cases h
      exact ⟨rfl, rfl, rfl⟩
    | _ =>
      cases h
      exact ⟨rfl, rfl, rfl⟩

/-- Nobody refuses the answer to the own request. -/
theorem judgeAnswer_of_answer (hread : Reads m request)
    (ha : Service.answer request outcome now = .ok answer) (he : answer.encode = .ok octets) :
    ∃ reply, Relay.Message.ofOctets octets = .ok reply ∧ judgeAnswer m octets = .ok reply := by
  obtain ⟨hkind, hdirection, hreference⟩ := answer_eq_ok ha
  obtain ⟨reply, hr, halike⟩ := Relay.Message.ofOctets_encode he
  refine ⟨reply, hr, ?_⟩
  unfold judgeAnswer
  rw [hr]
  simp [halike.isRequest, halike.direction, halike.reference, hkind, hdirection, hreference,
    hread.alike.direction, hread.alike.reference]

/-- Only an outcome of the control layer has a cause of its own. -/
theorem refusalCause_of_answer (h : Service.answer request outcome now = .ok answer) :
    refusalCause outcome = .protocolError := by
  cases outcome with
  | ok report => rfl
  | error failure => cases failure <;> first | rfl | cases h

theorem checkReport_eq_error {direction : Direction} {report : Transfer.Message}
    {failure : Failure} (h : Service.checkReport direction report = .error failure) :
    failure = .control .protocolError := by
  unfold Service.checkReport at h
  split at h <;> cases h
  rfl

theorem cause_of_answer {failure : Failure}
    (h : Service.answer request outcome now = .error failure) :
    failure.controlCause?.getD .protocolError = refusalCause outcome := by
  cases outcome with
  | error failure =>
    cases failure with
    | relay cause diagnostic report =>
      cases report with
      | none => cases h
      | some report =>
        rcases hcheck : Service.checkReport request.direction.reverse report with failure' | _
        · simp only [Service.answer, Service.errorFor, hcheck] at h
          cases h
          rw [checkReport_eq_error hcheck]
          rfl
        · simp only [Service.answer, Service.errorFor, hcheck] at h
          cases h
    | _ =>
      cases h
      rfl
  | ok report =>
    cases request with
    | data reference centre m =>
      rcases hcheck : Service.checkReport m.direction.reverse
        (report.getD (Service.plainReport m now)) with failure' | _
      · simp only [Service.answer, Relay.Message.direction, hcheck] at h
        cases h
        rw [checkReport_eq_error hcheck]
        rfl
      · simp only [Service.answer, Relay.Message.direction, hcheck] at h
        cases h
    | _ => cases h

/-- The cause that is told when an outcome comes to no answer. -/
theorem refusal_eq {t : TransactionId} {failure : Failure}
    (h : (do let answer ← Service.answer request outcome now
             (Message.carrying t answer).mapError Failure.codec) = .error failure) :
    failure.controlCause?.getD .protocolError = refusalCause outcome ∧
      ∀ answer, Service.answer request outcome now = .ok answer →
        ∃ fault, answer.encode = .error fault := by
  rcases ha : Service.answer request outcome now with failure' | answer
  · rw [ha] at h
    cases h
    exact ⟨cause_of_answer ha, by rintro _ ⟨⟩⟩
  · rw [ha] at h
    replace h : (Message.carrying t answer).mapError Failure.codec = .error failure := h
    rcases hdata : Message.carrying t answer with fault | data
    · rw [hdata] at h
      cases h
      refine ⟨(refusalCause_of_answer ha).symm, ?_⟩
      rintro _ ⟨⟩
      exact ⟨fault, carrying_eq_error hdata⟩
    · rw [hdata] at h
      cases h

end ShortMessage.Link
