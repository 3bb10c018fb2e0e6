import ShortMessage.Proofs.Relay.History

/-!
# What a request comes to

Said without the definitions that the entity computes it with, so that these are held to something.

* `Carries` — the message under which a request is sent;
* `Answers` — what an acknowledgement and what an error say of a request: an acknowledgement brings
  its report, an error its cause, its diagnostic and its report;
* `Reported` — what each kind of failure of the transport is reported as;
* `Verdict` — what a request that was sent comes to, by its history: the failure of the transport,
  what the first accepted answer says, or cause 47 once the time to wait is over;
* `Conclusion` — what any request comes to, also one that is never sent.

`carries_iff`, `answers_iff` and `reported_iff` tie them to `Request.message`, `Request.outcome` and
`sendFailure`.
-/

namespace ShortMessage.Relay

open Transaction

/-! ## Messages, answers and failures -/

/-- The message under which a request is sent. -/
inductive Carries (centre : Address) (reference : UInt8) : Request → Message → Prop where
  | transfer {m} : Carries centre reference (.transfer m) (.data reference centre m)
  | notice : Carries centre reference .notice (.memoryAvailable reference)

/-- What an answer says of a request. -/
inductive Answers : Request → Message → Outcome → Prop where
  /-- The message was taken, and this is the report on it. -/
  | taken {m direction reference report} :
      Answers (.transfer m) (.ack direction reference report) (.ok report)
  /-- The notice was taken, and nothing is reported on a notice. -/
  | noted {direction reference report} :
      Answers .notice (.ack direction reference report) (.ok none)
  /-- The request was turned down. -/
  | refused {r direction reference cause diagnostic report} :
      Answers r (.error direction reference cause diagnostic report)
        (.error (.relay cause diagnostic report))

/-- The failure that says no more than the octet of its cause. -/
def bareFailure (code : UInt8) : Failure := .relay (Cause.ofCode code) none none

/-- What a failure of the transport is reported as. -/
inductive Reported : Failure → Failure → Prop where
  /-- What this layer says already is passed on. -/
  | relay {cause diagnostic report} :
      Reported (.relay cause diagnostic report) (.relay cause diagnostic report)
  /-- The control layer below failed. -/
  | control {cause} : Reported (.control cause) (bareFailure 47)
  | codec {fault} : Reported (.codec fault) (bareFailure 111)
  | unexpected {expected actual} : Reported (.unexpected expected actual) (bareFailure 111)
  | transport {text} : Reported (.transport text) (bareFailure 111)

section

variable {centre : Address} {reference : UInt8} {r : Request} {m sent : Message} {outcome : Outcome}
  {failure reported : Failure}

theorem carries_iff : Carries centre reference r sent ↔ sent = r.message centre reference := by
  constructor
  · rintro (_ | _) <;> rfl
  · rintro rfl
    cases r with
    | transfer m => exact .transfer
    | notice => exact .notice

theorem carries_message : Carries centre reference r (r.message centre reference) :=
  carries_iff.2 rfl

/-- Only acknowledgements and errors answer, and each says one thing. -/
theorem answers_iff :
    Answers r m outcome ↔ m.isRequest = false ∧ outcome = r.outcome (some m) := by
  constructor
  · rintro (_ | _ | _) <;> exact ⟨rfl, rfl⟩
  · rintro ⟨hm, rfl⟩
    cases m with
    | data _ _ _ => cases hm
    | memoryAvailable _ => cases hm
    | ack direction reference report =>
      cases r with
      | transfer m => exact .taken
      | notice => exact .noted
    | error direction reference cause diagnostic report => exact .refused

theorem answers_outcome (hm : m.isRequest = false) : Answers r m (r.outcome (some m)) :=
  answers_iff.2 ⟨hm, rfl⟩

/-- Without an answer there is nothing to say but that the time is over. -/
theorem outcome_none (r : Request) : r.outcome none = .error (bareFailure 47) := by
  cases r <;> rfl

theorem reported_iff : Reported failure reported ↔ reported = sendFailure failure := by
  constructor
  · rintro (_ | _ | _ | _ | _) <;> rfl
  · rintro rfl
    cases failure with
    | relay cause diagnostic report => exact .relay
    | control cause => exact .control
    | codec fault => exact .codec
    | unexpected expected actual => exact .unexpected
    | transport text => exact .transport

theorem Carries.reference_eq (hc : Carries centre reference r sent) :
    sent.reference = reference := by
  cases hc <;> rfl

/-- The way of the answer is not that of the request. -/
theorem Carries.direction_ne (hc : Carries centre reference r sent) :
    r.answerDirection ≠ sent.direction := by
  cases hc with
  | @transfer m =>
    show m.direction.reverse ≠ m.direction
    cases m.direction <;> decide
  | notice =>
    show Direction.toMobile ≠ Direction.toCentre
    decide

end

/-! ## What the history of a request comes to -/

/-- What a request that was sent comes to by its history. -/
inductive Verdict (h : List Step) (answerTime : Nat) (id : TaskId) (r : Request) (now : Nat) :
    Outcome → Prop where
  /-- The transport failed. -/
  | failed {sent failure reported} : completions h id = [(sent, .error failure)] →
      Reported failure reported → Verdict h answerTime id r now (.error reported)
  /-- The first answer that was accepted counts. -/
  | answered {sent m rest outcome} : completions h id = [(sent, .ok ())] →
      acceptances h id = m :: rest → Answers r m outcome → Verdict h answerTime id r now outcome
  /-- No answer was accepted, and the time to wait has just ended. -/
  | expired {sent} : completions h id = [(sent, .ok ())] → acceptances h id = [] →
      now = sent + answerTime → Verdict h answerTime id r now (.error (bareFailure 47))

/-- What a request comes to that returns in the state `s`. -/
inductive Conclusion (config : Config) (h : List Step) (s : Entity) (id : TaskId) (r : Request) :
    Outcome → Prop where
  /-- An answer may not be sent as a request. -/
  | misused {m} : r = .transfer m → m.isReport = true → emissions h id = [] →
      Conclusion config h s id r (misuse m)
  /-- Other requests have all the references. -/
  | congested : carriesReport r = false → (∀ reference, ∃ j, s.holds j reference = true) →
      emissions h id = [] → Conclusion config h s id r (.error (bareFailure 42))
  /-- It was sent. -/
  | settled {reference sent outcome} : Carries config.centre reference r sent →
      emissions h id = [sent] → Verdict h config.answerTime id r s.clock outcome →
      Conclusion config h s id r outcome

/-- A message that answers a request which was sent as `sent` under this reference. -/
def Fits (r : Request) (reference : UInt8) (sent m : Message) : Prop :=
  (∃ outcome, Answers r m outcome) ∧ m.reference = reference ∧ m.direction ≠ sent.direction

/-- A request is sent once or not at all, and only what fits is accepted for it. -/
def Recorded (config : Config) (h : List Step) (id : TaskId) (r : Request) : Prop :=
  (emissions h id = [] ∧ acceptances h id = []) ∨
    ∃ reference sent, Carries config.centre reference r sent ∧ emissions h id = [sent] ∧
      ∀ m ∈ acceptances h id, Fits r reference sent m

section

variable {config : Config} {h : List Step} {id : TaskId} {r : Request} {tr : Step}
  {answerTime now : Nat} {outcome outcome' : Outcome}

theorem Verdict.snoc (hv : Verdict h answerTime id r now outcome) (hc : completion? id tr = none)
    (ha : acceptances h id = [] → ∀ sent, completions h id = [(sent, .ok ())] →
      acceptance? id tr = none) : Verdict (h ++ [tr]) answerTime id r now outcome := by
  have hsame : completions (h ++ [tr]) id = completions h id := by
    rw [completions_snoc, hc, Option.toList_none, List.append_nil]
  cases hv with
  | failed hsent hrep => exact .failed (hsame.trans hsent) hrep
  | @answered sent m rest outcome hsent hacc hans =>
    have hmore : acceptances (h ++ [tr]) id = m :: (rest ++ (acceptance? id tr).toList) := by
      rw [acceptances_snoc, hacc, List.cons_append]
    exact .answered (hsame.trans hsent) hmore hans
  | expired hsent hacc hnow =>
    refine .expired (hsame.trans hsent) ?_ hnow
    rw [acceptances_snoc, hacc, ha hacc _ hsent]
    rfl

theorem Verdict.completions_ne_nil (hv : Verdict h answerTime id r now outcome) :
    completions h id ≠ [] := by
  cases hv <;> simp_all

/-- The verdict on a request that the transport took. -/
theorem Verdict.of_ok {sent : Nat} (hv : Verdict h answerTime id r now outcome)
    (hsent : completions h id = [(sent, .ok ())]) :
    outcome = r.outcome (acceptances h id).head? ∧
      (acceptances h id = [] → now = sent + answerTime) := by
  cases hv with
  | failed hsent' => rw [hsent] at hsent'; cases hsent'
  | answered hsent' hacc hans =>
    rw [hacc]
    exact ⟨(answers_iff.1 hans).2, by rintro ⟨⟩⟩
  | expired hsent' hacc hnow =>
    rw [hsent] at hsent'
    cases hsent'
    rw [hacc]
    exact ⟨(outcome_none r).symm, fun _ => hnow⟩

/-- A history allows one verdict. -/
theorem Verdict.unique (hv : Verdict h answerTime id r now outcome)
    (hv' : Verdict h answerTime id r now outcome') : outcome = outcome' := by
  cases hv with
  | failed hsent hrep =>
    cases hv' with
    | failed hsent' hrep' =>
      rw [hsent] at hsent'
      cases hsent'
      rw [reported_iff.1 hrep, reported_iff.1 hrep']
    | answered hsent' _ _ => rw [hsent] at hsent'; cases hsent'
    | expired hsent' _ _ => rw [hsent] at hsent'; cases hsent'
  | answered hsent hacc hans =>
    rw [(hv'.of_ok hsent).1, hacc]
    exact (answers_iff.1 hans).2
  | expired hsent hacc hnow =>
    rw [(hv'.of_ok hsent).1, hacc]
    exact (outcome_none r).symm

theorem Conclusion.snoc {s : Entity} (hc : Conclusion config h s id r outcome)
    (hem : tr.events.filterMap (·.emittedBy? id) = []) (hcomp : completion? id tr = none)
    (hacc : acceptance? id tr = none) : Conclusion config (h ++ [tr]) s id r outcome := by
  have hsame : emissions (h ++ [tr]) id = emissions h id := by
    rw [emissions_snoc, hem, List.append_nil]
  cases hc with
  | misused hr hm he => exact .misused hr hm (hsame.trans he)
  | congested hr hall he => exact .congested hr hall (hsame.trans he)
  | settled hcar he hv => exact .settled hcar (hsame.trans he) (hv.snoc hcomp fun _ _ _ => hacc)

theorem Recorded.congr {h' : List Step} (hold : Recorded config h id r)
    (hem : emissions h' id = emissions h id) (hacc : acceptances h' id = acceptances h id) :
    Recorded config h' id r := by
  unfold Recorded
  rw [hem, hacc]
  exact hold

/-- Whatever is accepted for a request says something of it. -/
theorem Recorded.answers {m : Message} (hrec : Recorded config h id r) (hm : m ∈ acceptances h id) :
    Answers r m (r.outcome (some m)) := by
  obtain ⟨-, hnil⟩ | ⟨reference, sent, -, -, hall⟩ := hrec
  · rw [hnil] at hm
    cases hm
  · obtain ⟨⟨outcome, hans⟩, -⟩ := hall m hm
    exact answers_outcome (answers_iff.1 hans).1

end

end ShortMessage.Relay
