import ShortMessage.Proofs.Control.Tasks

/-!
# What is heard and said on a transaction of the other side

A request of the other side has a transaction from its acknowledgement to the end of its service.
`arrivals` are the messages that come in for the transaction meanwhile, and `words` is what this
side says on it: copies of the answer, or one error.

* `Attentive` — how far the service has come says how many words there were and how many messages
  wait unread; kept by every step, whatever the transport does (`attentive_of_run`);
* `heard_of_run` — the mailbox is open from the start, and nobody looks at it before the answer is
  out.  So the first message decides, be it older than the answer or not (`Heard`).

An acknowledgement that comes too early is thus taken for one of the answer, and the answer goes out
once more after an error that came too early: `misheard_early`.
-/

namespace ShortMessage.Control

open Transaction

/-! ## What a history says of a transaction -/

/-- The message that comes in in a step for the transaction of a lease. -/
def arrival? (lease : Lease) (tr : Transit) : Option Message :=
  match tr.move, tr.events with
  | .run j, [.returned _ (.received (.ok ()))] =>
    match tr.before.task? j with
    | some (.receiving (.arrived m)) =>
      if !m.transaction.flag && (tr.before.incoming.holder? m.transaction.value.toNat).any
        fun holder => holder.lease = lease then some m else none
    | _ => none
  | _, _ => none

/-- The messages that came in for a transaction, the first one first. -/
def arrivals (h : List Transit) (lease : Lease) : List Message := h.filterMap (arrival? lease)

/-- What the task that has a lease says in a step. -/
def word? (lease : Lease) (tr : Transit) : Option Message :=
  match tr.events with
  | [.emitted j m] => if tr.before.leaseIn? j = some lease then some m else none
  | _ => none

/-- All that is said on a transaction of the other side once its request is acknowledged. -/
def words (h : List Transit) (lease : Lease) : List Message := h.filterMap (word? lease)

/-- The messages that came in before anything was said. -/
def early (h : List Transit) (lease : Lease) : List Message :=
  arrivals (h.takeWhile fun tr => (word? lease tr).isNone) lease

/-- The messages that came in after something was said. -/
def late (h : List Transit) (lease : Lease) : List Message :=
  arrivals (h.dropWhile fun tr => (word? lease tr).isNone) lease

/-- Is it data? -/
def Message.isData : Message → Bool
  | .data _ _ => true
  | _ => false

/-- How often data was repeated on its way. -/
def Handover.repeated : Handover → Nat
  | .transmitting repeated | .awaiting repeated _ => repeated

/-- What a message on a transaction of the other side does in a history that leads to `e`. -/
structure Heard (h : List Transit) (e : Entity) : Prop where
  /-- An answer counts as acknowledged as soon as any message has come, before the answer or after
  it; the oldest one is taken. -/
  confirmed : ∀ {id lease data repeated deadline},
    e.task? id = some (.serving (.delivering lease data (.awaiting repeated deadline))) →
    words h lease = List.replicate (repeated + 1) data ∧
      e.incoming.pending lease = early h lease ++ late h lease ∧
      ((e.run id).isSome ↔ early h lease ≠ [] ∨ late h lease ≠ [])
  /-- Behind a message at most one thing is said, and nothing if something was said before. -/
  last : ∀ {front tr back lease m}, h = front ++ tr :: back → arrival? lease tr = some m →
    (words back lease).length ≤ 1 ∧ (words front lease ≠ [] → words back lease = [])
  /-- While the application is asked an acknowledgement is put aside; only one that finds the
  mailbox full is answered with an error. -/
  acked : ∀ {id j t service}, e.task? id = some (.receiving (.arrived (.ack t))) →
    t.flag = false → e.task? j = some (.serving (.handling service)) →
    service.lease.index = t.value.toNat →
    ∃ e', e.step? (.run id) = some (e', if (arrivals h service.lease).length < mailboxDepth then
      [.returned id (.received (.ok ()))]
    else [.emitted id (.error t.reverse .invalidTransactionId)])

/-! ## A history that grows by a step -/

section

variable {h : List Transit} {tr : Transit} {lease : Lease} {m : Message}

theorem arrivals_snoc :
    arrivals (h ++ [tr]) lease = arrivals h lease ++ (arrival? lease tr).toList :=
  filterMap_snoc _

theorem words_snoc : words (h ++ [tr]) lease = words h lease ++ (word? lease tr).toList :=
  filterMap_snoc _

theorem words_snoc_of_none (hw : word? lease tr = none) :
    words (h ++ [tr]) lease = words h lease := by
  rw [words_snoc, hw]
  exact List.append_nil _

theorem early_append_late : early h lease ++ late h lease = arrivals h lease := by
  unfold early late arrivals
  rw [← List.filterMap_append, List.takeWhile_append_dropWhile]

theorem arrival?_eq_some (ha : arrival? lease tr = some m) :
    ∃ j k, tr.move = .run j ∧ tr.events = [.returned k (.received (.ok ()))] ∧
      tr.before.task? j = some (.receiving (.arrived m)) ∧ m.transaction.flag = false ∧
      ∃ holder, tr.before.incoming.holder? m.transaction.value.toNat = some holder ∧
        holder.lease = lease := by
  unfold arrival? at ha
  split at ha
  · rename_i j k hmove hev
    split at ha
    · rename_i m' ht
      split at ha
      · rename_i hc
        cases ha
        simp only [Bool.and_eq_true, Bool.not_eq_true', Option.any_eq_true,
          decide_eq_true_eq] at hc
        exact ⟨j, k, hmove, hev, ht, hc.1, hc.2⟩
      · cases ha
    · cases ha
  · cases ha

theorem word?_eq_some (hw : word? lease tr = some m) :
    ∃ id, tr.events = [.emitted id m] ∧ tr.before.leaseIn? id = some lease := by
  unfold word? at hw
  split at hw
  · rename_i id m' hev
    split at hw
    · rename_i hl
      cases hw
      exact ⟨id, hev, hl⟩
    · cases hw
  · cases hw

/-- Nothing is said in the step in which a message comes in. -/
theorem word?_eq_none_of_arrival? (ha : arrival? lease tr = some m) : word? lease tr = none := by
  obtain ⟨_, _, -, hev, -⟩ := arrival?_eq_some ha
  simp [word?, hev]

end

/-! ## What a step does to a transaction -/

section

variable {config : Config} {h k : List Transit} {e e' : Entity} {id j : TaskId}
  {move : Move Input} {events : List (Event Message Result)} {lease : Lease} {task : Task}
  {m : Message}

namespace Entity

theorem Orderly.serial_lt (ho : e.Orderly) (hl : e.leaseIn? id = some lease) :
    lease.serial < e.incoming.issued := by
  obtain ⟨box, hbox⟩ := ho.incoming.mailbox hl
  exact ho.incoming.sound.serial_lt hbox

/-- The slot of a request is its own to the end. -/
theorem Orderly.holder (ho : e.Orderly) (hl : e.leaseIn? id = some lease) :
    e.incoming.holder? lease.index = some ⟨lease, ()⟩ := by
  obtain ⟨box, hbox⟩ := ho.incoming.mailbox hl
  have hr := ho.kept hl
  rw [Table.isReleased_of_mailbox? hbox] at hr
  obtain ⟨key, hkey⟩ := ho.incoming.sound.holder_of_unreleased hbox hr
  exact hkey

theorem Rule.issued_le (hr : Rule e move e' events) (ho : e.Orderly) :
    e.incoming.issued ≤ e'.incoming.issued := by
  cases hr with
  | act ht ha =>
    rw [incoming_settle]
    obtain hc | ⟨m, -, -, hp, -⟩ := ha.incoming_change ho.incoming.sound
    · exact hc.issued_le
    · exact Nat.le_of_eq (Table.issued_postIf hp).symm
  | _ => exact Nat.le_refl _

end Entity

theorem serial_lt_of_arrival? (ho : e.Orderly) (ha : arrival? lease ⟨e, move, events, e'⟩ = some m) :
    lease.serial < e.incoming.issued := by
  obtain ⟨_, _, -, -, -, -, holder, hh, rfl⟩ := arrival?_eq_some ha
  obtain ⟨box, hbox, -⟩ := ho.incoming.sound.holder_mailbox hh
  exact ho.incoming.sound.serial_lt hbox

theorem serial_lt_of_word? (ho : e.Orderly) (hw : word? lease ⟨e, move, events, e'⟩ = some m) :
    lease.serial < e.incoming.issued := by
  obtain ⟨id, -, hl⟩ := word?_eq_some hw
  exact ho.serial_lt hl

/-- Nobody but the task that has a transaction says anything on it. -/
theorem word?_of_ne (ho : e.Orderly) (hr : Entity.Rule e move e' events)
    (hl : e.leaseIn? id = some lease) (hid : actor? move ≠ some id) :
    word? lease ⟨e, move, events, e'⟩ = none := by
  rcases hw : word? lease ⟨e, move, events, e'⟩ with _ | m
  · rfl
  · obtain ⟨j, hev, hj⟩ := word?_eq_some hw
    simp only at hev hj
    have hmem : .emitted j m ∈ events := by
      rw [hev]
      exact List.mem_singleton.2 rfl
    have hactor := hr.task_of_mem hmem
    rw [ho.incoming.unique hl hj] at hid
    exact absurd hactor hid

theorem arrival?_self (ha : actor? move = some id) (ht : e.task? id = some task)
    (htask : ∀ x, task ≠ .receiving (.arrived x)) (lease : Lease) :
    arrival? lease ⟨e, move, events, e'⟩ = none := by
  rcases hacc : arrival? lease ⟨e, move, events, e'⟩ with _ | x
  · rfl
  · obtain ⟨k, _, hmove, -, hk, -⟩ := arrival?_eq_some hacc
    simp only at hmove hk
    rw [hmove] at ha
    cases ha
    rw [ht] at hk
    exact absurd (Option.some.inj hk) (htask x)

theorem arrival?_posted (ht : e.task? j = some (.receiving (.arrived m)))
    (hflag : m.transaction.flag = false) {holder : Holder Unit}
    (hh : e.incoming.holder? m.transaction.value.toNat = some holder) :
    arrival? lease ⟨e, .run j, [.returned j (.received (.ok ()))], e'⟩ =
      if holder.lease = lease then some m else none := by
  simp [arrival?, ht, hflag, hh]

/-- A message that comes in for a transaction of the other side is posted. -/
theorem Entity.Act.postsIncoming {task' : Option Task} {outgoing incoming : Table Message Unit}
    (ha : Entity.Act e id move (.receiving (.arrived m)) task' outgoing incoming events)
    (hflag : m.transaction.flag = false) (hev : events = [.returned j (.received (.ok ()))]) :
    e.incoming.post m.transaction.value.toNat m = .ok incoming := by
  cases ha with
  | posted hflag' => rw [hflag] at hflag'; cases hflag'
  | postedIncoming _ _ hp => exact hp
  | _ => cases hev

/-- What comes for a transaction waits behind what came before. -/
theorem Entity.Rule.incoming_pending (hr : Entity.Rule e move e' events) (ho : e.Orderly)
    (hl : e.leaseIn? id = some lease) (hid : actor? move ≠ some id) :
    e'.incoming.pending lease =
      e.incoming.pending lease ++ (arrival? lease ⟨e, move, events, e'⟩).toList := by
  cases hr with
  | start input => simp [arrival?, Entity.spawn]
  | handedOver ht => simp [arrival?, Entity.spawn, Entity.remove]
  | elapsed duration => simp [arrival?]
  | @act j _ task task' outgoing incoming _ ht ha =>
    have hne : id ≠ j := by
      rintro rfl
      exact hid ha.actor
    rw [Entity.incoming_settle]
    obtain hc | ⟨m, rfl, hflag, hp, rfl, rfl, -⟩ := ha.incoming_change ho.incoming.sound
    · have hm := (ho.incoming.of_ne hc (Entity.leaseIn?_eq ht) hl hne).1
      have hnone : arrival? lease ⟨e, move, events, e.settle j task' outgoing incoming⟩ = none := by
        rcases hx : arrival? lease ⟨e, move, events, e.settle j task' outgoing incoming⟩ with _ | m
        · rfl
        · obtain ⟨j', k, hmove, hev, ht', hflag, holder, hh, rfl⟩ := arrival?_eq_some hx
          simp only at hmove hev ht' hh
          obtain rfl : j = j' := by
            have hactor := ha.actor
            rw [hmove] at hactor
            exact (Option.some.inj hactor).symm
          rw [ht] at ht'
          cases ht'
          -- a message that is posted is not lost on its receiver
          obtain ⟨holder', hh', -, hpend⟩ := Table.pending_postIf (ha.postsIncoming hflag hev)
          rw [hh] at hh'
          cases hh'
          have hgrow := hpend holder.lease
          rw [if_pos rfl] at hgrow
          have hsame : incoming.pending holder.lease = e.incoming.pending holder.lease := by
            simp [Table.pending, hm]
          rw [hsame] at hgrow
          exact absurd hgrow (by simp)
      rw [hnone]
      simp [Table.pending, hm]
    · obtain ⟨holder, hh, -, hpend⟩ := Table.pending_postIf hp
      rw [hpend, arrival?_posted ht hflag hh]
      by_cases hx : lease = holder.lease
      · rw [if_pos hx, if_pos hx.symm]
        rfl
      · rw [if_neg hx, if_neg fun hc => hx hc.symm]
        exact (List.append_nil _).symm

/-! ## How far a service has come -/

/-- What a history says of a transaction, by the task that has it. -/
def Tended (config : Config) (h : List Transit) (e : Entity) (lease : Lease) : Task → Prop
  | .receiving (.accepting _) | .serving (.accepted _) | .serving (.handling _) =>
    words h lease = [] ∧ arrivals h lease = e.incoming.pending lease
  | .serving (.delivering _ data handover) =>
    words h lease = List.replicate (handover.repeated + 1) data ∧ data.isData = true ∧
      handover.repeated ≤ config.maxRetransmissions ∧
      arrivals h lease = e.incoming.pending lease
  | _ => True

/-- What holds along every run. -/
structure Attentive (config : Config) (h : List Transit) (e : Entity) : Prop where
  orderly : e.Orderly
  config_eq : e.config = config
  /-- Of a transaction that nobody had yet there is nothing to tell. -/
  unissued : ∀ {lease}, e.incoming.issued ≤ lease.serial → words h lease = [] ∧ arrivals h lease = []
  tended : ∀ {id task lease}, e.task? id = some task → Entity.incomingLease? task = some lease →
    Tended config h e lease task

theorem attentive_ofConfig (config : Config) : Attentive config [] (.ofConfig config) where
  orderly := Entity.orderly_ofConfig config
  config_eq := rfl
  unissued _ := ⟨rfl, rfl⟩
  tended := by rintro _ _ _ ⟨⟩

/-- Nothing is said, and what comes is put aside. -/
theorem Tended.listen {tr : Transit} (ht : Tended config h e lease task)
    (hw : word? lease tr = none) (hpending : e'.incoming.pending lease =
      e.incoming.pending lease ++ (arrival? lease tr).toList) :
    Tended config (h ++ [tr]) e' lease task := by
  have hwords : words (h ++ [tr]) lease = words h lease := words_snoc_of_none hw
  have hheard (ha : arrivals h lease = e.incoming.pending lease) :
      arrivals (h ++ [tr]) lease = e'.incoming.pending lease := by
    rw [arrivals_snoc, ha, hpending]
  unfold Tended at ht ⊢
  split at ht
  · exact ⟨hwords.trans ht.1, hheard ht.2⟩
  · exact ⟨hwords.trans ht.1, hheard ht.2⟩
  · exact ⟨hwords.trans ht.1, hheard ht.2⟩
  · exact ⟨hwords.trans ht.1, ht.2.1, ht.2.2.1, hheard ht.2.2.2⟩
  · trivial

/-- The task itself takes a step. -/
theorem Tended.step {task' : Task} {outgoing incoming : Table Message Unit}
    (ht : ∀ {lease}, Entity.incomingLease? task = some lease → Tended config h e lease task)
    (ho : e.Orderly) (hnew : ∀ {lease : Lease}, e.incoming.issued ≤ lease.serial →
      words h lease = [] ∧ arrivals h lease = []) (hconfig : e.config = config)
    (htask : e.task? id = some task)
    (ha : Entity.Act e id move task (some task') outgoing incoming events)
    (he : e'.incoming = incoming) (hl : Entity.incomingLease? task' = some lease) :
    Tended config (h ++ [⟨e, move, events, e'⟩]) e' lease task' := by
  have hleaseIn := Entity.leaseIn?_eq htask
  have hquiet (hx : ∀ x, task ≠ .receiving (.arrived x)) :
      arrivals (h ++ [⟨e, move, events, e'⟩]) lease = arrivals h lease := by
    rw [arrivals_snoc, arrival?_self ha.actor htask hx]
    exact List.append_nil _
  have hsilent (hev : ∀ j m, events ≠ [.emitted j m]) :
      words (h ++ [⟨e, move, events, e'⟩]) lease = words h lease := by
    refine words_snoc_of_none ?_
    rcases hw : word? lease ⟨e, move, events, e'⟩ with _ | m
    · rfl
    · obtain ⟨j, hev', -⟩ := word?_eq_some hw
      exact absurd hev' (hev j m)
  have hsaid {x : Message} (hev : events = [.emitted id x]) (hl' : e.leaseIn? id = some lease) :
      words (h ++ [⟨e, move, events, e'⟩]) lease = words h lease ++ [x] := by
    rw [words_snoc]
    simp [word?, hev, hl']
  generalize hk : some task' = task'' at ha
  cases ha with
  | delivered htake hf | took htake hf | tookLate htake hf => cases hf <;> cases hk <;> cases hl
  | called =>
    cases hk
    cases hl
    obtain ⟨hw, harr⟩ := ht rfl
    exact ⟨(hsilent (by simp)).trans hw, (hquiet (by simp)).trans (he ▸ harr)⟩
  | replied _ hd =>
    cases hk
    cases hl
    obtain ⟨hw, harr⟩ := ht rfl
    obtain ⟨payload, -, rfl⟩ := carrying_eq_ok hd
    exact ⟨by rw [hsaid rfl hleaseIn, hw]; rfl, rfl, Nat.zero_le _,
      (hquiet (by simp)).trans (he ▸ harr)⟩
  | replyTransmitted =>
    cases hk
    cases hl
    obtain ⟨hw, hd, hle, harr⟩ := ht rfl
    exact ⟨(hsilent (by simp)).trans hw, hd, hle, (hquiet (by simp)).trans (he ▸ harr)⟩
  | replyRepeated _ _ hlt =>
    cases hk
    cases hl
    obtain ⟨hw, hd, hle, harr⟩ := ht rfl
    refine ⟨?_, hd, hconfig ▸ hlt, (hquiet (by simp)).trans (he ▸ harr)⟩
    rw [hsaid rfl hleaseIn, hw]
    exact (List.replicate_succ' ..).symm
  | accepted hlease =>
    cases hk
    cases hl
    obtain ⟨hleased, -⟩ := ho.incoming.sound.leased_of_leaseAt? hlease
    obtain ⟨hw, harr⟩ := hnew (Nat.le_of_eq hleased.serial.symm)
    refine ⟨?_, ?_⟩
    · rw [words_snoc_of_none, hw]
      simp [word?, hleaseIn, Entity.incomingLease?]
    · rw [hquiet (by simp), harr, he, hleased.pending, if_pos rfl]
  | uncalled | unreplied | confirmed | replyUntransmitted | refusalTransmitted | replyGivenUp |
    unaccepted =>
    cases hk
    trivial
  | congested | closed | served | unknownStray | unread | posted | postedIncoming | strayError |
    withdrawn | replyDone | replyFailed | aborted => cases hk
  | _ =>
    cases hk
    cases hl

theorem Attentive.tended_step (ha : Attentive config h e) (hr : Entity.Rule e move e' events)
    (ht' : e'.task? id = some task) (hl : Entity.incomingLease? task = some lease) :
    Tended config (h ++ [⟨e, move, events, e'⟩]) e' lease task := by
  have ho := ha.orderly
  cases hr.standing ho ht' with
  | kept ht hid =>
    have hl' := (Entity.leaseIn?_eq ht).trans hl
    exact (ha.tended ht hl).listen (word?_of_ne ho hr hl' hid) (hr.incoming_pending ho hl' hid)
  | acted ht hact he =>
    subst he
    exact Tended.step (fun hl => ha.tended ht hl) ho ha.unissued ha.config_eq ht hact
      (Entity.incoming_settle _ _ _) hl
  | started input => cases input <;> cases hl
  | @heir j service ht hmove hev he =>
    subst hmove hev he
    cases hl
    have hnow : Tended config h e service.lease (.receiving (.accepting service)) :=
      ha.tended ht rfl
    refine hnow.listen (by simp [word?]) ?_
    rw [arrival?_self rfl ht (by simp) _]
    exact (List.append_nil _).symm

theorem Attentive.step (ha : Attentive config h e) (hs : e.step? move = some (e', events)) :
    Attentive config (h ++ [⟨e, move, events, e'⟩]) e' := by
  have hr := Entity.rule_of_step? hs
  refine ⟨ha.orderly.step hr, hr.config_eq.trans ha.config_eq, fun {lease} hserial => ?_,
    fun ht' hl => ha.tended_step hr ht' hl⟩
  have hserial' : e.incoming.issued ≤ lease.serial :=
    Nat.le_trans (hr.issued_le ha.orderly) hserial
  obtain ⟨hw, harr⟩ := ha.unissued hserial'
  constructor
  · rw [words_snoc, hw]
    rcases hx : word? lease ⟨e, move, events, e'⟩ with _ | m
    · rfl
    · exact absurd (serial_lt_of_word? ha.orderly hx) (Nat.not_lt.2 hserial')
  · rw [arrivals_snoc, harr]
    rcases hx : arrival? lease ⟨e, move, events, e'⟩ with _ | m
    · rfl
    · exact absurd (serial_lt_of_arrival? ha.orderly hx) (Nat.not_lt.2 hserial')

theorem attentive_of_run (hrun : Run Entity.step? (.ofConfig config) h e) :
    Attentive config h e := by
  induction hrun with
  | rest => exact attentive_ofConfig config
  | step _ hs ih => exact ih.step hs

/-! ## What a message changes -/

/-- The steps in which something is said on a transaction of the other side. -/
inductive Utters (e : Entity) (id : TaskId) (lease : Lease) :
    Task → Move Input → Message → Prop where
  | uncalled {service} : ShortMessage.Service.call? service.request = none →
      Utters e id lease (.serving (.accepted service)) (.run id)
        (.error service.transaction .protocolError)
  | replied {service outcome now answer data} :
      ShortMessage.Service.answer service.request outcome now = .ok answer →
      Message.carrying service.transaction answer = .ok data →
      Utters e id lease (.serving (.handling service)) (.answered id outcome now) data
  | unreplied {service outcome now failure} :
      (do let answer ← ShortMessage.Service.answer service.request outcome now
          (Message.carrying service.transaction answer).mapError Failure.codec) = .error failure →
      Utters e id lease (.serving (.handling service)) (.answered id outcome now)
        (.error service.transaction (failure.controlCause?.getD .protocolError))
  | repeated {data repeated deadline} : e.incoming.pending lease = [] →
      repeated < e.config.maxRetransmissions →
      Utters e id lease (.serving (.delivering lease data (.awaiting repeated deadline))) (.expire id)
        data

theorem utters_of_word? (hr : Entity.Rule e move e' events)
    (hw : word? lease ⟨e, move, events, e'⟩ = some m) : ∃ id task, e.task? id = some task ∧
      Entity.incomingLease? task = some lease ∧ Utters e id lease task move m := by
  obtain ⟨id, hev, hl⟩ := word?_eq_some hw
  simp only at hev hl
  cases hr with
  | start input | elapsed duration => cases hev
  | handedOver ht => cases hev
  | @act j _ task task' outgoing incoming _ ht ha =>
    obtain rfl : id = j :=
      ha.task_of_mem (.emitted id m) (by rw [hev]; exact List.mem_singleton.2 rfl)
    rw [Entity.leaseIn?_eq ht] at hl
    refine ⟨id, task, ht, hl, ?_⟩
    cases ha with
    | delivered htake hf | took htake hf | tookLate htake hf => cases hl
    | uncalled hc => cases hev; exact .uncalled hc
    | replied ha hd => cases hev; exact .replied ha hd
    | unreplied hfail => cases hev; exact .unreplied hfail
    | replyRepeated _ hpending hlt =>
      cases hev
      cases hl
      exact .repeated hpending hlt
    | called | confirmed | served | replyTransmitted | replyUntransmitted | refusalTransmitted |
      replyGivenUp | unaccepted | withdrawn | aborted => cases hev
    | _ => cases hl

/-- Once a message has come for an answer that is out, nothing more is said. -/
theorem Attentive.word?_eq_none (ha : Attentive config h e) (hr : Entity.Rule e move e' events)
    (harr : arrivals h lease ≠ []) (hwords : words h lease ≠ []) :
    word? lease ⟨e, move, events, e'⟩ = none := by
  rcases hw : word? lease ⟨e, move, events, e'⟩ with _ | x
  · rfl
  · obtain ⟨id, task, ht, hl, hu⟩ := utters_of_word? hr hw
    have htended := ha.tended ht hl
    cases hu with
    | uncalled => exact absurd htended.1 hwords
    | replied => exact absurd htended.1 hwords
    | unreplied => exact absurd htended.1 hwords
    | repeated hpending => exact absurd (htended.2.2.2.trans hpending) harr

/-- What is said in all the steps after a message. -/
theorem Attentive.quiet (ha : Attentive config h e) (harr : arrivals h lease ≠ [])
    (hrun : Run Entity.step? e k e') : Attentive config (h ++ k) e' ∧
      (words k lease).length ≤ 1 ∧ (words h lease ≠ [] → words k lease = []) := by
  induction hrun with
  | rest => exact ⟨by rwa [List.append_nil], Nat.zero_le _, fun _ => rfl⟩
  | @step k t t' move events _ hs ih =>
    obtain ⟨hk, hle, hnone⟩ := ih
    have hr := Entity.rule_of_step? hs
    have hsplit : words (h ++ k) lease = words h lease ++ words k lease := List.filterMap_append
    have harr' : arrivals (h ++ k) lease ≠ [] := by
      have happend : arrivals (h ++ k) lease = arrivals h lease ++ arrivals k lease :=
        List.filterMap_append
      rw [happend]
      exact List.append_ne_nil_of_left_ne_nil harr _
    refine ⟨by rw [← List.append_assoc]; exact hk.step hs, ?_, fun hwords => ?_⟩
    · by_cases hw : words k lease = []
      · rw [words_snoc, hw]
        cases word? lease ⟨t, move, events, t'⟩ <;> simp
      · rw [words_snoc_of_none (hk.word?_eq_none hr harr' (by rw [hsplit]; simp [hw]))]
        exact hle
    · rw [words_snoc_of_none (hk.word?_eq_none hr harr' (by rw [hsplit]; simp [hwords]))]
      exact hnone hwords

/-! ## The result -/

/-- What comes for a transaction finds its task, or a full mailbox. -/
theorem Entity.Orderly.post (ho : e.Orderly) (hl : e.leaseIn? id = some lease) (m : Message) :
    (∃ incoming, (e.incoming.pending lease).length < mailboxDepth ∧
      e.incoming.post lease.index m = .ok incoming) ∨
    ∃ u, ¬(e.incoming.pending lease).length < mailboxDepth ∧
      e.incoming.post lease.index m = .error u := by
  obtain ⟨box, hbox⟩ := ho.incoming.mailbox hl
  have hholder := ho.holder hl
  rw [Table.pending_of_mailbox? hbox]
  rcases hp : e.incoming.post lease.index m with u | incoming
  · refine .inr ⟨u, fun hroom => ?_, rfl⟩
    unfold Table.post at hp
    rw [Table.postIf_of_room hholder rfl hbox hroom] at hp
    cases hp
  · obtain ⟨holder, box', hh, -, hbox', hroom, -⟩ := Table.postIf_eq_ok hp
    rw [hholder] at hh
    cases hh
    rw [hbox] at hbox'
    cases hbox'
    exact .inl ⟨incoming, hroom, rfl⟩

/-- However messages come in and whatever the transport does, the first message for a transaction
decides, and nothing that comes before the answer is turned away but for want of room. -/
theorem heard_of_run (hrun : Run Entity.step? (.ofConfig config) h e) : Heard h e where
  confirmed {id lease data repeated deadline} ht := by
    obtain ⟨hwords, -, -, harr⟩ := (attentive_of_run hrun).tended ht rfl
    have hsplit : arrivals h lease = early h lease ++ late h lease := early_append_late.symm
    refine ⟨hwords, harr.symm.trans hsplit, ?_⟩
    have hpending : e.incoming.pending lease ≠ [] ↔ early h lease ≠ [] ∨ late h lease ≠ [] := by
      rw [← harr, hsplit, ne_eq, List.append_eq_nil_iff]
      tauto
    rw [← hpending]
    simp only [Entity.run, ht, Entity.runServing]
    split
    · rename_i m incoming htake
      have hcons := Table.pending_take? htake
      simp [Entity.become, hcons]
    · rename_i htake
      simp [Table.take?_eq_none_iff.1 htake]
  last {front tr back lease m} heq harr := by
    rw [heq] at hrun
    obtain ⟨hfront, hstep, hback⟩ := hrun.split
    have hnow : arrivals (front ++ [tr]) lease ≠ [] := by
      rw [arrivals_snoc, harr]
      simp
    have hsame : words (front ++ [tr]) lease = words front lease :=
      words_snoc_of_none (word?_eq_none_of_arrival? harr)
    have hq := ((attentive_of_run hfront).step hstep).quiet hnow hback
    rw [hsame] at hq
    exact hq.2
  acked {id j t service} ht hflag hj hindex := by
    have ha := attentive_of_run hrun
    obtain ⟨-, harr⟩ := ha.tended hj rfl
    rw [harr]
    have hpost := ha.orderly.post (Entity.leaseIn?_eq hj) (.ack t)
    rw [hindex] at hpost
    obtain ⟨incoming, hroom, hp⟩ | ⟨u, hfull, hp⟩ := hpost
    · rw [if_pos hroom]
      simp [Entity.step?, Entity.run, ht, Entity.runReceiving, Entity.receiveMessage,
        Message.transaction, hflag, hp, Entity.finish]
    · rw [if_neg hfull]
      simp [Entity.step?, Entity.run, ht, Entity.runReceiving, Entity.receiveMessage,
        Message.transaction, hflag, hp, Entity.stray, Entity.reject, Entity.emit]

/-- While the application is asked about two requests, an error comes in on the transaction of the
second one, and an acknowledgement on that of the first one. -/
def tooEarly : List (Move Input) :=
  [.start (.receive (.data ⟨false, 0⟩ [6, 1])), .run 0, .run 0, .sent 0 (.ok ()), .run 1,
    .start (.receive (.data ⟨false, 1⟩ [6, 2])), .run 2, .run 2, .sent 2 (.ok ()), .run 3,
    .start (.receive (.error ⟨false, 1⟩ .networkFailure)), .run 4,
    .start (.receive (.ack ⟨false, 0⟩))]

/-- Both are put aside, and then the requests are answered. -/
def answeredLater : List (Move Input) :=
  [.run 5, .answered 1 (.ok none) ⟨2000, 1, 1, 0, 0, 0, 0⟩, .sent 1 (.ok ()),
    .answered 3 (.ok none) ⟨2000, 1, 1, 0, 0, 0, 0⟩]

theorem heard_tooEarly : ∃ h e,
    replay Entity.step? (.ofConfig {}) (tooEarly ++ answeredLater) = some (h, e) ∧ Heard h e ∧
      early h ⟨0, 0⟩ = [.ack ⟨false, 0⟩] ∧ late h ⟨0, 0⟩ = [] ∧ (e.run 1).isSome ∧
      early h ⟨1, 1⟩ = [.error ⟨false, 1⟩ .networkFailure] ∧
      words h ⟨1, 1⟩ = [.data ⟨true, 1⟩ [3, 2]] := by
  have hall : (replay Entity.step? (.ofConfig {}) (tooEarly ++ answeredLater)).any (fun r =>
      early r.1 ⟨0, 0⟩ == [.ack ⟨false, 0⟩] && late r.1 ⟨0, 0⟩ == [] && (r.2.run 1).isSome &&
        early r.1 ⟨1, 1⟩ == [.error ⟨false, 1⟩ .networkFailure] &&
        words r.1 ⟨1, 1⟩ == [.data ⟨true, 1⟩ [3, 2]]) = true := by
    decide +kernel
  obtain ⟨h, e, hr, hrun, hc⟩ := exists_run_of_replay hall
  simp only [Bool.and_eq_true, beq_iff_eq] at hc
  exact ⟨h, e, hr, heard_of_run hrun, hc.1.1.1.1, hc.1.1.1.2, hc.1.1.2, hc.1.2, hc.2⟩

/-- The transaction of an answer that waits for its acknowledgement. -/
def Entity.awaiting? (e : Entity) (id : TaskId) : Option Lease :=
  match e.task? id with
  | some (.serving (.delivering lease _ (.awaiting _ _))) => some lease
  | _ => none

/-- The transaction of a request that is with the application. -/
def Entity.handling? (e : Entity) (id : TaskId) : Option Lease :=
  match e.task? id with
  | some (.serving (.handling service)) => some service.lease
  | _ => none

/-- The message that has come in with a task. -/
def Entity.arrived? (e : Entity) (id : TaskId) : Option Message :=
  match e.task? id with
  | some (.receiving (.arrived m)) => some m
  | _ => none

/-- An acknowledgement that is older than the answer is taken for one of the answer, and it is not
turned away when it comes; and an error does not keep the answer back that comes after it. -/
theorem misheard_early :
    (¬∀ config h e, Run Entity.step? (.ofConfig config) h e →
      ∀ id lease data repeated deadline x rest,
        e.task? id = some (.serving (.delivering lease data (.awaiting repeated deadline))) →
        e.incoming.pending lease = x :: rest → x.isAck = true → (e.run id).isSome →
        ∃ a ∈ late h lease, a.isAck = true) ∧
    (¬∀ config h e, Run Entity.step? (.ofConfig config) h e →
      ∀ front tr back lease t cause, h = front ++ tr :: back →
        arrival? lease tr = some (.error t cause) → ∀ x ∈ words back lease, x.isData = false) ∧
    ¬∀ config h e, Run Entity.step? (.ofConfig config) h e →
      ∀ id j t service, e.task? id = some (.receiving (.arrived (.ack t))) → t.flag = false →
        e.task? j = some (.serving (.handling service)) → service.lease.index = t.value.toNat →
        ∃ e', e.step? (.run id) =
          some (e', [.emitted id (.error t.reverse .invalidTransactionId)]) := by
  refine ⟨fun hclaim => ?_, fun hclaim => ?_, fun hclaim => ?_⟩
  · have hall : (replay Entity.step? (.ofConfig {}) (tooEarly ++ answeredLater)).any (fun r =>
        (r.2.awaiting? 1).any fun lease =>
          r.2.incoming.pending lease == [.ack ⟨false, 0⟩] && (r.2.run 1).isSome &&
            (late r.1 lease).isEmpty) = true := by
      decide +kernel
    obtain ⟨h, e, -, hrun, hc⟩ := exists_run_of_replay hall
    simp only [Option.any_eq_true, Bool.and_eq_true, beq_iff_eq, List.isEmpty_iff] at hc
    obtain ⟨lease, hlease, ⟨hpending, hone⟩, hlate⟩ := hc
    unfold Entity.awaiting? at hlease
    split at hlease
    · rename_i data repeated deadline ht
      cases hlease
      obtain ⟨a, ha, -⟩ := hclaim {} h e hrun 1 lease data repeated deadline _ _ ht hpending rfl hone
      rw [hlate] at ha
      cases ha
    · cases hlease
  · have hall : (replay Entity.step? (.ofConfig {}) (tooEarly ++ answeredLater)).any (fun r =>
        (r.1[11]?.any fun tr => arrival? ⟨1, 1⟩ tr == some (.error ⟨false, 1⟩ .networkFailure)) &&
          words (r.1.drop 12) ⟨1, 1⟩ == [.data ⟨true, 1⟩ [3, 2]]) = true := by
      decide +kernel
    obtain ⟨h, e, -, hrun, hc⟩ := exists_run_of_replay hall
    simp only [Bool.and_eq_true, Option.any_eq_true, beq_iff_eq] at hc
    obtain ⟨⟨tr, htr, herror⟩, hwords⟩ := hc
    obtain ⟨hlt, hget⟩ := List.getElem?_eq_some_iff.1 htr
    have hcut : h = h.take 11 ++ tr :: h.drop 12 := by
      rw [← hget, ← List.drop_eq_getElem_cons hlt, List.take_append_drop]
    have hfalse := hclaim {} h e hrun _ _ _ _ _ _ hcut herror (.data ⟨true, 1⟩ [3, 2])
      (by rw [hwords]; exact List.mem_singleton.2 rfl)
    cases hfalse
  · have hall : (replay Entity.step? (.ofConfig {}) tooEarly).any (fun r =>
        (r.2.arrived? 5 == some (.ack ⟨false, 0⟩)) && ((r.2.handling? 1).any fun lease =>
          lease.index == 0) && (r.2.step? (.run 5)).any fun x =>
            x.2.all fun ev => (ev.emittedBy? 5).isNone) = true := by
      decide +kernel
    obtain ⟨h, e, -, hrun, hc⟩ := exists_run_of_replay hall
    simp only [Bool.and_eq_true, Option.any_eq_true, beq_iff_eq] at hc
    obtain ⟨⟨harrived, lease, hlease, hindex⟩, x, hx, hsilent⟩ := hc
    unfold Entity.arrived? at harrived
    unfold Entity.handling? at hlease
    split at harrived
    · rename_i ht
      cases harrived
      split at hlease
      · rename_i service hj
        cases hlease
        obtain ⟨e', hstep⟩ := hclaim {} h e hrun 5 1 _ service ht rfl hj hindex
        rw [hstep] at hx
        cases hx
        cases hsilent
      · cases hlease
    · cases harrived

end

end ShortMessage.Control
