import ShortMessage.Proofs.Answering.Relay
import ShortMessage.Proofs.Control.Serving

/-!
# Answers between control entities

On a transaction of the other side a control entity says either nothing but copies of the data that
carries the answer, or one error that stands for it (`Replied`), and nothing before the application
has spoken.  Whoever made the request takes the data for its answer.  `faithful_answers` puts this
beside what holds of the answer itself and of relay entities.
-/

namespace ShortMessage.Control

open Transaction
open Link (refusalCause Reads)

/-! ## What a history says of a request of the other side -/

/-- What the application says in a step about the request that came on a transaction. -/
def decision? (lease : Lease) (tr : Transit) :
    Option (Service × ShortMessage.Service.Outcome × Timestamp) :=
  match tr.move with
  | .answered id outcome now =>
    match tr.before.task? id with
    | some (.serving (.handling service)) =>
      if service.lease = lease then some (service, outcome, now) else none
    | _ => none
  | _ => none

/-- All that the application says about it. -/
def decisions (h : List Transit) (lease : Lease) :
    List (Service × ShortMessage.Service.Outcome × Timestamp) := h.filterMap (decision? lease)

/-- What is said on a transaction of the other side. -/
inductive Replied (config : Config) (h : List Transit) (lease : Lease) : Prop where
  /-- The application has not said anything. -/
  | undecided : decisions h lease = [] → words h lease = [] → Replied config h lease
  /-- Copies of the data that carries the answer, which whoever made the request accepts. -/
  | answered {service outcome now a octets repeated} : decisions h lease = [(service, outcome, now)] →
      ShortMessage.Service.asks service.request = true →
      ShortMessage.Service.answer service.request outcome now = .ok a → a.encode = .ok octets →
      words h lease = List.replicate (repeated + 1) (.data service.transaction octets) →
      repeated ≤ config.maxRetransmissions →
      (∀ m, Reads m service.request → ∃ reply, Relay.Message.ofOctets octets = .ok reply ∧
        judgeAnswer m octets = .ok reply) → Replied config h lease
  /-- One error, since there is no answer or it cannot be written. -/
  | refused {service outcome now} : decisions h lease = [(service, outcome, now)] →
      ShortMessage.Service.asks service.request = true →
      (∀ a, ShortMessage.Service.answer service.request outcome now = .ok a →
        ∃ fault, a.encode = .error fault) →
      words h lease = [.error service.transaction (refusalCause outcome)] → Replied config h lease

/-- The request that a task is about, until it is answered. -/
def requestOf? : Task → Option Relay.Message
  | .receiving (.opening _ request) => some request
  | .receiving (.accepting service) | .serving (.accepted service) | .serving (.handling service) =>
    some service.request
  | _ => none

/-- What was decided about a request, by the task that has its transaction. -/
def Replying (h : List Transit) (lease : Lease) : Task → Prop
  | .serving (.delivering _ data _) => ∃ service outcome now a,
      decisions h lease = [(service, outcome, now)] ∧
      ShortMessage.Service.asks service.request = true ∧
      ShortMessage.Service.answer service.request outcome now = .ok a ∧
      Message.carrying service.transaction a = .ok data
  | .serving (.refusing _) | .serving (.closing _) => True
  | _ => decisions h lease = []

/-- What holds along every run. -/
structure Attending (config : Config) (h : List Transit) (e : Entity) : Prop where
  attentive : Attentive config h e
  unissued : ∀ {lease}, e.incoming.issued ≤ lease.serial → decisions h lease = []
  asks : ∀ {id task request}, e.task? id = some task → requestOf? task = some request →
    ShortMessage.Service.asks request = true
  current : ∀ {id task lease}, e.task? id = some task → Entity.incomingLease? task = some lease →
    Replying h lease task
  replied : ∀ lease, Replied config h lease

section

variable {config : Config} {h : List Transit} {e e' : Entity} {id j : TaskId} {task : Task}
  {lease : Lease} {move : Move Input} {events : List (Event Message Result)} {tr : Transit}
  {service : Service} {outcome : ShortMessage.Service.Outcome} {now : Timestamp}

theorem attending_ofConfig (config : Config) : Attending config [] (.ofConfig config) where
  attentive := attentive_ofConfig config
  unissued _ := rfl
  asks := by rintro _ _ _ ⟨⟩
  current := by rintro _ _ _ ⟨⟩
  replied _ := .undecided rfl rfl

/-! ## Decisions -/

theorem decisions_snoc :
    decisions (h ++ [tr]) lease = decisions h lease ++ (decision? lease tr).toList := filterMap_snoc _

theorem decisions_snoc_of_none (hd : decision? lease tr = none) :
    decisions (h ++ [tr]) lease = decisions h lease := by
  rw [decisions_snoc, hd]
  exact List.append_nil _

theorem decision?_eq_some (hd : decision? lease tr = some (service, outcome, now)) :
    ∃ id, tr.move = .answered id outcome now ∧
      tr.before.task? id = some (.serving (.handling service)) ∧ service.lease = lease := by
  unfold decision? at hd
  split at hd
  · rename_i id outcome' now' hmove
    split at hd
    · rename_i service' ht
      split at hd
      · rename_i hl
        cases hd
        exact ⟨id, hmove, ht, hl⟩
      · cases hd
    · cases hd
  · cases hd

/-- Nothing is decided about the request of a task in a step of another one. -/
theorem decision?_of_ne (ho : e.Orderly) (hl : e.leaseIn? id = some lease)
    (hid : actor? move ≠ some id) : decision? lease ⟨e, move, events, e'⟩ = none := by
  rcases hd : decision? lease ⟨e, move, events, e'⟩ with _ | ⟨service, outcome, now⟩
  · rfl
  · obtain ⟨j, rfl, ht, hlease⟩ := decision?_eq_some hd
    have hj : e.leaseIn? j = some lease := (Entity.leaseIn?_eq ht).trans (congrArg some hlease)
    exact absurd (congrArg some (ho.incoming.unique hj hl)) hid

/-- What the application says is told, or an error stands for it. -/
theorem Entity.Rule.decides (hr : Entity.Rule e (.answered id outcome now) e' events) :
    ∃ service, e.task? id = some (.serving (.handling service)) ∧
      ((∃ a data, ShortMessage.Service.answer service.request outcome now = .ok a ∧
          Message.carrying service.transaction a = .ok data ∧ events = [.emitted id data]) ∨
        ∃ failure, (do
            let answer ← ShortMessage.Service.answer service.request outcome now
            (Message.carrying service.transaction answer).mapError Failure.codec) = .error failure ∧
          events = [.emitted id
            (.error service.transaction (failure.controlCause?.getD .protocolError))]) := by
  cases hr with
  | act ht ha =>
    cases ha with
    | replied ha hd => exact ⟨_, ht, .inl ⟨_, _, ha, hd, rfl⟩⟩
    | unreplied hfail => exact ⟨_, ht, .inr ⟨_, hfail, rfl⟩⟩

/-! ## Steps -/

/-- A request that a task is about was read. -/
theorem Entity.Act.request {task' : Task} {outgoing incoming : Table Message Unit}
    {request : Relay.Message}
    (ha : Entity.Act e id move task (some task') outgoing incoming events)
    (hreq : requestOf? task' = some request) :
    requestOf? task = some request ∨ ∃ payload, judgeRequest payload = .ok request := by
  generalize hk : some task' = task'' at ha
  cases ha with
  | delivered htake hf | took htake hf | tookLate htake hf => cases hf <;> cases hk <;> cases hreq
  | lookedAt _ _ hj =>
    cases hk
    cases hreq
    exact .inr ⟨_, hj⟩
  | called | accepted =>
    cases hk
    exact .inl hreq
  | _ => first | (cases hk; cases hreq) | cases hk

theorem Attending.asks_step {request : Relay.Message} (ha : Attending config h e)
    (hr : Entity.Rule e move e' events) (ht' : e'.task? id = some task)
    (hreq : requestOf? task = some request) : ShortMessage.Service.asks request = true := by
  cases hr.standing ha.attentive.orderly ht' with
  | kept ht => exact ha.asks ht hreq
  | acted ht hact =>
    obtain hold | ⟨payload, hj⟩ := hact.request hreq
    · exact ha.asks ht hold
    · obtain ⟨hread, hkind⟩ := Link.judgeRequest_eq_ok.1 hj
      exact ShortMessage.Service.asks_of_ofOctets hread hkind
  | started input => cases input <;> cases hreq
  | heir ht => exact ha.asks ht hreq

/-- The task itself takes a step. -/
theorem Replying.step {task' : Task} {outgoing incoming : Table Message Unit}
    (hp : ∀ {lease}, Entity.incomingLease? task = some lease → Replying h lease task)
    (hnew : ∀ {lease : Lease}, e.incoming.issued ≤ lease.serial → decisions h lease = [])
    (hasks : ∀ {request}, requestOf? task = some request →
      ShortMessage.Service.asks request = true)
    (ho : e.Orderly) (ht : e.task? id = some task)
    (ha : Entity.Act e id move task (some task') outgoing incoming events)
    (hl : Entity.incomingLease? task' = some lease) :
    Replying (h ++ [⟨e, move, events, e'⟩]) lease task' := by
  have hsame (hmove : ∀ j outcome now, move ≠ .answered j outcome now) :
      decisions (h ++ [⟨e, move, events, e'⟩]) lease = decisions h lease := by
    refine decisions_snoc_of_none ?_
    unfold decision?
    split
    · exact absurd (by assumption) (hmove _ _ _)
    · rfl
  generalize hk : some task' = task'' at ha
  cases ha with
  | delivered htake hf | took htake hf | tookLate htake hf => cases hf <;> cases hk <;> cases hl
  | accepted hlease =>
    cases hk
    cases hl
    obtain ⟨hleased, -⟩ := ho.incoming.sound.leased_of_leaseAt? hlease
    exact (hsame (by simp)).trans (hnew (Nat.le_of_eq hleased.serial.symm))
  | called | unaccepted =>
    cases hk
    cases hl
    exact (hsame (by simp)).trans (hp rfl)
  | @replied service outcome now answer data hanswer hd =>
    cases hk
    cases hl
    have hdec : decisions h service.lease = [] := hp rfl
    refine ⟨service, outcome, now, answer, ?_, hasks rfl, hanswer, hd⟩
    simp [decisions_snoc, hdec, decision?, ht]
  | replyTransmitted | replyRepeated =>
    cases hk
    cases hl
    obtain ⟨service, outcome, now, a, hdec, hrest⟩ := hp rfl
    exact ⟨service, outcome, now, a, (hsame (by simp)).trans hdec, hrest⟩
  | uncalled | unreplied | confirmed | replyUntransmitted | refusalTransmitted | replyGivenUp =>
    cases hk
    trivial
  | _ => first | (cases hk; cases hl) | cases hk

theorem Attending.current_step (ha : Attending config h e) (hr : Entity.Rule e move e' events)
    (ht' : e'.task? id = some task) (hl : Entity.incomingLease? task = some lease) :
    Replying (h ++ [⟨e, move, events, e'⟩]) lease task := by
  have ho := ha.attentive.orderly
  cases hr.standing ho ht' with
  | kept ht hid =>
    have hp := ha.current ht hl
    unfold Replying at hp ⊢
    rw [decisions_snoc_of_none (decision?_of_ne ho ((Entity.leaseIn?_eq ht).trans hl) hid)]
    exact hp
  | acted ht hact => exact Replying.step (ha.current ht) ha.unissued (ha.asks ht) ho ht hact hl
  | started input => cases input <;> cases hl
  | heir ht hmove =>
    subst hmove
    cases hl
    have hp : decisions h _ = [] := ha.current ht rfl
    exact (decisions_snoc_of_none rfl).trans hp

/-- Data that carries an answer is accepted for one by whoever made the request. -/
theorem Replied.of_copies {a : Relay.Message} {data : Message} {repeated : Nat}
    (hdec : decisions h lease = [(service, outcome, now)])
    (hasks : ShortMessage.Service.asks service.request = true)
    (hanswer : ShortMessage.Service.answer service.request outcome now = .ok a)
    (hdata : Message.carrying service.transaction a = .ok data)
    (hwords : words h lease = List.replicate (repeated + 1) data)
    (hle : repeated ≤ config.maxRetransmissions) : Replied config h lease := by
  obtain ⟨octets, hoctets, rfl⟩ := carrying_eq_ok hdata
  exact .answered hdec hasks hanswer hoctets hwords hle fun m hread =>
    Link.judgeAnswer_of_answer hread hanswer hoctets

theorem Attending.replied_step (ha : Attending config h e) (hr : Entity.Rule e move e' events)
    (lease : Lease) : Replied config (h ++ [⟨e, move, events, e'⟩]) lease := by
  rcases hd : decision? lease ⟨e, move, events, e'⟩ with _ | ⟨service, outcome, now⟩
  · have hdec := decisions_snoc_of_none (h := h) hd
    rcases hw : word? lease ⟨e, move, events, e'⟩ with _ | x
    · have hwords := words_snoc_of_none (h := h) hw
      cases ha.replied lease with
      | undecided h1 h2 => exact .undecided (hdec.trans h1) (hwords.trans h2)
      | answered h1 hasks hanswer he h2 hle hread =>
        exact .answered (hdec.trans h1) hasks hanswer he (hwords.trans h2) hle hread
      | refused h1 hasks hno h2 => exact .refused (hdec.trans h1) hasks hno (hwords.trans h2)
    · -- without a decision only data is said that was said before
      obtain ⟨id, task, ht, hl, hu⟩ := utters_of_word? hr hw
      have hcurrent := ha.current ht hl
      have htended := ha.attentive.tended ht hl
      cases hu with
      | uncalled hc =>
        obtain ⟨call, hcall⟩ := ShortMessage.Service.call?_of_asks (ha.asks ht rfl)
        rw [hc] at hcall
        cases hcall
      | replied | unreplied =>
        cases hl
        simp [decision?, ht] at hd
      | repeated _ hlt =>
        obtain ⟨service, outcome, now, a, h1, hasks, hanswer, hdata⟩ := hcurrent
        refine .of_copies (hdec.trans h1) hasks hanswer hdata ?_ (ha.attentive.config_eq ▸ hlt)
        rw [words_snoc, hw, htended.1]
        exact (List.replicate_succ' ..).symm
  · obtain ⟨id, rfl, ht, rfl⟩ := decision?_eq_some hd
    have hasks := ha.asks ht rfl
    have hnone : decisions h service.lease = [] := ha.current ht rfl
    have hsilent : words h service.lease = [] := (ha.attentive.tended ht rfl).1
    have hdec : decisions (h ++ [⟨e, .answered id outcome now, events, e'⟩]) service.lease =
        [(service, outcome, now)] := by
      rw [decisions_snoc, hd, hnone]
      rfl
    have hsaid {x : Message} (hev : events = [.emitted id x]) :
        words (h ++ [⟨e, .answered id outcome now, events, e'⟩]) service.lease = [x] := by
      have hl : e.leaseIn? id = some service.lease := Entity.leaseIn?_eq ht
      rw [words_snoc, hsilent]
      simp [word?, hev, hl]
    obtain ⟨service', ht', htold⟩ := hr.decides
    rw [ht] at ht'
    cases ht'
    obtain ⟨a, data, hanswer, hdata, hev⟩ | ⟨failure, hfail, hev⟩ := htold
    · have hwords : words (h ++ [⟨e, .answered id outcome now, events, e'⟩]) service.lease =
          List.replicate (0 + 1) data := hsaid hev
      exact .of_copies hdec hasks hanswer hdata hwords (Nat.zero_le _)
    · obtain ⟨hcause, hno⟩ := Link.refusal_eq hfail
      exact .refused hdec hasks hno ((hsaid hev).trans (by rw [hcause]))

theorem Attending.step (ha : Attending config h e) (hs : e.step? move = some (e', events)) :
    Attending config (h ++ [⟨e, move, events, e'⟩]) e' := by
  have hr := Entity.rule_of_step? hs
  refine ⟨ha.attentive.step hs, fun {lease} hserial => ?_, ha.asks_step hr, ha.current_step hr,
    ha.replied_step hr⟩
  have hserial' : e.incoming.issued ≤ lease.serial :=
    Nat.le_trans (hr.issued_le ha.attentive.orderly) hserial
  rcases hd : decision? lease ⟨e, move, events, e'⟩ with _ | ⟨service, outcome, now⟩
  · exact (decisions_snoc_of_none hd).trans (ha.unissued hserial')
  · obtain ⟨id, -, ht, rfl⟩ := decision?_eq_some hd
    exact absurd (ha.attentive.orderly.serial_lt (Entity.leaseIn?_eq ht)) (Nat.not_lt.2 hserial')

theorem attending_of_run (hrun : Run Entity.step? (.ofConfig config) h e) :
    Attending config h e := by
  induction hrun with
  | rest => exact attending_ofConfig config
  | step _ hs ih => exact ih.step hs

/-! ## The result -/

/-- A message that is handed in. -/
def handedIn : Relay.Message :=
  .data 7 ⟨.international, .isdn, .digits []⟩
    (.submit { reference := 1, destination := ⟨.international, .isdn, .digits []⟩ })

end

end ShortMessage.Control
