import ShortMessage.Proofs.Link.Answers

/-!
# What an answer tells

`told` is what the application's outcome amounts to for a request: a report, or a cause with what
goes along.  If that can be said in an answer (`tellable`), the answer says it, and nothing else
(`Faithful`); whoever made the request then learns it, and whoever passed it on learns whether it
was carried out.  The application can be asked about every request that is read
(`asks_of_ofOctets`).
-/

namespace ShortMessage.Service

open Link (refusalCause)

/-- Is the application asked about a message? -/
def asks : Relay.Message → Bool
  | .data _ _ m => !m.isReport
  | .memoryAvailable _ => true
  | .ack _ _ _ | .error _ _ _ _ _ => false

/-- What is to be told in answer to a request.  A message that is taken without a report gets a
plain one, a notice never gets one. -/
def told (request : Relay.Message) (outcome : Outcome) (now : Timestamp) : Outcome :=
  match request, outcome with
  | .data _ _ m, .ok report => .ok (some (report.getD (plainReport m now)))
  | _, .ok _ => .ok none
  | _, .error failure => .error failure

/-- Can this be told in an answer that travels this way? -/
def tellable (direction : Direction) : Outcome → Bool
  | .ok report | .error (.relay _ _ report) => report.all (·.isReportTo direction)
  | .error _ => false

/-- What an answer tells. -/
def tells? : Relay.Message → Option Outcome
  | .ack _ _ report => some (.ok report)
  | .error _ _ cause diagnostic report => some (.error (.relay cause diagnostic report))
  | .data _ _ _ | .memoryAvailable _ => none

variable {request : Relay.Message} {outcome : Outcome} {now : Timestamp} {a : Relay.Message}
  {m : Transfer.Message}

theorem answer_of_tellable
    (h : tellable request.direction.reverse (told request outcome now) = true) :
    ∃ a, answer request outcome now = .ok a ∧ a.reference = request.reference ∧
      a.direction = request.direction.reverse ∧ tells? a = some (told request outcome now) := by
  cases outcome with
  | ok report =>
    cases request with
    | data reference centre m =>
      have hfits : (report.getD (plainReport m now)).isReportTo m.direction.reverse = true := by
        simpa [told, tellable, Relay.Message.direction] using h
      refine ⟨.ack m.direction.reverse reference (some (report.getD (plainReport m now))), ?_, rfl,
        rfl, rfl⟩
      simp only [answer, Relay.Message.direction, checkReport, hfits]
      rfl
    | _ => exact ⟨_, rfl, rfl, rfl, rfl⟩
  | error failure =>
    cases failure with
    | relay cause diagnostic report =>
      cases report with
      | none => exact ⟨_, rfl, rfl, rfl, by cases request <;> rfl⟩
      | some report =>
        have hfits : report.isReportTo request.direction.reverse = true := by
          cases request <;> simpa [told, tellable] using h
        refine ⟨.error request.direction.reverse request.reference cause diagnostic (some report), ?_,
          rfl, rfl, by cases request <;> rfl⟩
        simp only [answer, errorFor, checkReport, hfits]
        rfl
    | _ => cases request <;> cases h

theorem answer_of_not_tellable
    (h : tellable request.direction.reverse (told request outcome now) = false) :
    answer request outcome now = .error (.control (refusalCause outcome)) := by
  cases outcome with
  | ok report =>
    cases request with
    | data reference centre m =>
      have hfits : (report.getD (plainReport m now)).isReportTo m.direction.reverse = false := by
        simpa [told, tellable, Relay.Message.direction] using h
      simp only [answer, Relay.Message.direction, checkReport, hfits]
      rfl
    | _ => cases h
  | error failure =>
    cases failure with
    | relay cause diagnostic report =>
      cases report with
      | none => cases request <;> cases h
      | some report =>
        have hfits : report.isReportTo request.direction.reverse = false := by
          cases request <;> simpa [told, tellable] using h
        simp only [answer, errorFor, checkReport, hfits]
        rfl
    | _ => rfl

theorem asks_of_ofOctets {octets : Octets} (h : Relay.Message.ofOctets octets = .ok request)
    (hreq : request.isRequest = true) : asks request = true := by
  cases request with
  | data reference centre m => simp [asks, Relay.Message.proper_of_ofOctets h _ _ _ rfl]
  | memoryAvailable reference => rfl
  | ack | error => cases hreq

theorem call?_of_asks (hasks : asks request = true) : ∃ call, call? request = some call := by
  cases request with
  | data | memoryAvailable => exact ⟨_, rfl⟩
  | ack | error => cases hasks

/-- An answer is one that can be told, and what it tells. -/
theorem tells?_of_answer (ha : answer request outcome now = .ok a) :
    tellable request.direction.reverse (told request outcome now) = true ∧
      tells? a = some (told request outcome now) := by
  cases ht : tellable request.direction.reverse (told request outcome now) with
  | false =>
    rw [answer_of_not_tellable ht] at ha
    cases ha
  | true =>
    obtain ⟨a', ha', -, -, htells⟩ := answer_of_tellable ht
    rw [ha'] at ha
    cases ha
    exact ⟨rfl, htells⟩

/-- Whoever passed a request on learns whether it was carried out. -/
theorem result_of_tells? (h : tells? a = some outcome) : result a = outcome.map fun _ => () := by
  cases a <;> cases h <;> rfl

end ShortMessage.Service
