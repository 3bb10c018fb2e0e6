import ShortMessage.Proofs.Control.Orderly
import ShortMessage.Proofs.Control.Steps
import ShortMessage.Proofs.Transaction.Renumbering

/-!
# A control entity under other numbers

`Entity.image` is a control entity whose tasks have other numbers, some of them left out, and whose
transactions of the other side have other serial numbers.  What a task does that was not left out
comes to the same there (`step?_image`), one lemma for each function of the entity; and what a task
does that was left out is no step at all, if it leaves the transactions alone
(`settle_image_of_dropped`).
-/

namespace ShortMessage.Control

open Transaction

/-! ## Tasks under other numbers -/

/-- The request on a transaction that has another serial number. -/
def Service.renumber (σ : Nat → Nat) (s : Service) : Service :=
  { s with lease := s.lease.renumber σ }

/-- The same phase on a transaction that has another serial number. -/
def Serving.renumber (σ : Nat → Nat) : Serving → Serving
  | .accepted s => .accepted (s.renumber σ)
  | .handling s => .handling (s.renumber σ)
  | .delivering lease data handover => .delivering (lease.renumber σ) data handover
  | .refusing lease => .refusing (lease.renumber σ)
  | .closing lease => .closing (lease.renumber σ)

/-- The same phase on a transaction that has another serial number, if it has one. -/
def Receiving.renumber (σ : Nat → Nat) : Receiving → Receiving
  | .accepting s => .accepting (s.renumber σ)
  | .withdrawing lease failure => .withdrawing (lease.renumber σ) failure
  | r => r

/-- The same task, when the transactions of the other side have other serial numbers. -/
def Task.renumber (σ : Nat → Nat) : Task → Task
  | .sending s => .sending s
  | .serving s => .serving (s.renumber σ)
  | .receiving r => .receiving (r.renumber σ)

namespace Entity

/-- The entity under other numbers. -/
def image (n : Numbering) (σ : Nat → Nat) (e : Entity) : Entity :=
  { e with
    incoming := e.incoming.renumber σ
    tasks := n.tasks (Task.renumber σ) e.tasks
    started := n.number e.started }

/-- What a step leads to, and what others see of it, under other numbers. -/
def imageStep (n : Numbering) (σ : Nat → Nat) : Step → Step :=
  Option.map fun (e, events) => (e.image n σ, events.map (Event.renumber n.number))

/-- An entity without tasks has no numbers. -/
theorem image_ofConfig (n : Numbering) (hzero : n.number 0 = 0) (config : Config) :
    (ofConfig config).image n id = ofConfig config := by
  simp only [image, ofConfig, Table.renumber_id, hzero]
  rfl

section

variable {n : Numbering} {σ : Nat → Nat} (e : Entity) {id : TaskId}

@[simp] theorem imageStep_none : imageStep n σ none = none := rfl

/-- A task that is kept is found under its other number. -/
theorem task?_image (hk : n.keeps id = true) :
    (e.image n σ).task? (n.number id) = (e.task? id).map (Task.renumber σ) :=
  Numbering.lookup_tasks _ e.tasks hk

theorem put_image (hk : n.keeps id = true) (task : Task) :
    (e.image n σ).put (n.number id) (task.renumber σ) = (e.put id task).image n σ := by
  simp [put, image, Numbering.tasks_replaced _ _ _ hk]

theorem remove_image (hk : n.keeps id = true) :
    (e.image n σ).remove (n.number id) = (e.remove id).image n σ := by
  simp only [remove, image, Numbering.tasks_removed _ _ hk]

/-- A task that is started gets the number that the numbering has for it. -/
theorem spawn_image (hn : n.Continues e.started) (task : Task) :
    (e.image n σ).spawn (task.renumber σ) = (e.spawn task).image n σ := by
  simp [spawn, image, Numbering.tasks_added _ _ _ hn.1, hn.2]

theorem finish_image (hk : n.keeps id = true) (result : Result) :
    (e.image n σ).finish (n.number id) result = imageStep n σ (e.finish id result) := by
  simp [finish, imageStep, remove_image e hk, Event.renumber]

theorem become_image (hk : n.keeps id = true) (task : Task) :
    (e.image n σ).become (n.number id) (task.renumber σ) = imageStep n σ (e.become id task) := by
  simp [become, imageStep, put_image e hk]

/-- What a task emits is seen under its other number, and the message is the same. -/
theorem emit_image (hk : n.keeps id = true) (m : Message) (task : Task) :
    (e.image n σ).emit (n.number id) m (task.renumber σ) = imageStep n σ (e.emit id m task) := by
  simp [emit, imageStep, put_image e hk, Event.renumber]

/-! ## Tasks that are left out -/

/-- What a task does that is left out, and that leaves the transactions alone, is not there. -/
theorem settle_image_of_dropped (hk : n.keeps id = false) (task : Option Task) :
    (e.settle id task e.outgoing e.incoming).image n σ = e.image n σ := by
  cases task with
  | none => simp only [settle, remove, image, Numbering.tasks_removed_of_dropped _ _ hk]
  | some task => simp only [settle, put, image, Numbering.tasks_replaced_of_dropped _ _ _ hk]

/-- A task that is left out uses up no number. -/
theorem spawn_image_of_dropped (hk : n.keeps e.started = false)
    (hnext : n.number (e.started + 1) = n.number e.started) (task : Task) :
    (e.spawn task).image n σ = e.image n σ := by
  simp only [spawn, image, Numbering.tasks_added_of_dropped _ _ _ hk, hnext]

/-! ## Sending -/

theorem openSession_image (hk : n.keeps id = true) (m : Relay.Message) :
    (e.image n σ).openSession (n.number id) m = imageStep n σ (e.openSession id m) := by
  have hsame : (e.image n σ).outgoing = e.outgoing := rfl
  unfold openSession
  rw [hsame]
  rcases e.outgoing.lease? () with _ | ⟨lease, outgoing⟩
  · exact finish_image e hk _
  · simp only
    rcases Message.carrying ⟨false, UInt8.ofNat lease.index⟩ m with fault | data
    · exact become_image { e with outgoing } hk (.sending _)
    · exact emit_image { e with outgoing } hk data (.sending _)

theorem concludeAnswer_image (hk : n.keeps id = true) (s : Session) (payload : Octets) :
    (e.image n σ).concludeAnswer (n.number id) s payload =
      imageStep n σ (e.concludeAnswer id s payload) := by
  unfold concludeAnswer
  rcases judgeAnswer s.message payload with cause | answer
  · exact emit_image e hk _ (.sending _)
  · exact emit_image e hk _ (.sending _)

theorem acknowledge_image (hk : n.keeps id = true) (s : Session) (reaction : Reaction) :
    (e.image n σ).acknowledge (n.number id) s reaction =
      imageStep n σ (e.acknowledge id s reaction) := by
  cases reaction with
  | ended cause => exact become_image e hk (.sending _)
  | acknowledged =>
    simp only [acknowledge]
    by_cases hreq : s.message.isRequest = true
    · rw [if_pos hreq, if_pos hreq]
      exact become_image e hk (.sending _)
    · rw [if_neg hreq, if_neg hreq]
      exact become_image e hk (.sending _)
  | answered payload =>
    simp only [acknowledge]
    by_cases hreq : s.message.isRequest = true
    · rw [if_pos hreq, if_pos hreq]
      exact concludeAnswer_image e hk s payload
    · rw [if_neg hreq, if_neg hreq]
      exact become_image e hk (.sending _)

theorem takeAnswer_image (hk : n.keeps id = true) (s : Session) (reaction : Reaction) :
    (e.image n σ).takeAnswer (n.number id) s reaction =
      imageStep n σ (e.takeAnswer id s reaction) := by
  cases reaction with
  | ended cause => exact become_image e hk (.sending _)
  | acknowledged => exact become_image e hk (.sending _)
  | answered payload => exact concludeAnswer_image e hk s payload

/-- A task that sends has a lease of this side, which keeps its serial number. -/
theorem runSending_image (hk : n.keeps id = true) (s : Sending) :
    (e.image n σ).runSending (n.number id) s = imageStep n σ (e.runSending id s) := by
  have hsame : (e.image n σ).outgoing = e.outgoing := rfl
  cases s with
  | opening m => exact openSession_image e hk m
  | delivering s handover =>
    cases handover with
    | transmitting repeated => rfl
    | awaiting repeated deadline =>
      simp only [runSending, hsame]
      rcases e.outgoing.take? s.lease with _ | ⟨m, outgoing⟩
      · rfl
      · exact acknowledge_image { e with outgoing } hk s m.reaction
  | awaitingAnswer s deadline =>
    simp only [runSending, hsame]
    rcases e.outgoing.take? s.lease with _ | ⟨m, outgoing⟩
    · simp only
      by_cases hreleased : e.outgoing.isReleased s.lease = true
      · rw [if_pos hreleased, if_pos hreleased]
        exact become_image e hk (.sending _)
      · rw [if_neg hreleased, if_neg hreleased]
        rfl
    · exact takeAnswer_image { e with outgoing } hk s m.reaction
  | expired s =>
    simp only [runSending, hsame]
    rcases e.outgoing.retire s.lease with ⟨_ | m, outgoing⟩
    · exact become_image { e with outgoing } hk (.sending _)
    · exact takeAnswer_image { e with outgoing } hk s m.reaction
  | concluding lease outcome => rfl
  | closing lease outcome => exact finish_image { e with outgoing := e.outgoing.drop lease } hk _

/-! ## Serving -/

theorem reply_image (hk : n.keeps id = true) (s : Service) (outcome : ShortMessage.Service.Outcome)
    (now : Timestamp) : (e.image n σ).reply (n.number id) (s.renumber σ) outcome now =
      imageStep n σ (e.reply id s outcome now) := by
  have hrequest : (s.renumber σ).request = s.request := rfl
  have htransaction : (s.renumber σ).transaction = s.transaction := rfl
  unfold reply
  simp only [hrequest, htransaction]
  split
  · exact emit_image e hk _ (.serving (.delivering s.lease _ (.transmitting 0)))
  · exact emit_image e hk _ (.serving (.refusing s.lease))

/-- A serving task does the same as long as its lease is told apart from all others. -/
theorem runServing_image (hσ : Function.Injective σ) (hk : n.keeps id = true) (s : Serving) :
    (e.image n σ).runServing (n.number id) (s.renumber σ) = imageStep n σ (e.runServing id s) := by
  cases s with
  | accepted s =>
    have hrequest : (s.renumber σ).request = s.request := rfl
    simp only [runServing, Serving.renumber, hrequest]
    rcases ShortMessage.Service.call? s.request with _ | call
    · exact emit_image e hk _ (.serving (.refusing s.lease))
    · have hput := put_image (σ := σ) e hk (.serving (.handling s))
      simp only [Task.renumber, Serving.renumber] at hput
      simp [imageStep, hput, Event.renumber]
  | handling s => rfl
  | delivering lease data handover =>
    cases handover with
    | transmitting repeated => rfl
    | awaiting repeated deadline =>
      have hsame : (e.image n σ).incoming = e.incoming.renumber σ := rfl
      simp only [runServing, Serving.renumber, hsame, Table.take?_renumber hσ]
      rcases e.incoming.take? lease with _ | ⟨m, incoming⟩
      · rfl
      · exact become_image { e with incoming } hk (.serving (.closing lease))
  | refusing lease => rfl
  | closing lease =>
    have hdrop : (e.image n σ).incoming.drop (lease.renumber σ) =
        (e.incoming.drop lease).renumber σ := Table.drop_renumber hσ
    simp only [runServing, Serving.renumber, hdrop]
    exact finish_image { e with incoming := e.incoming.drop lease } hk _

/-! ## Receiving -/

theorem stray_image (hk : n.keeps id = true) (m : Message) :
    (e.image n σ).stray (n.number id) m = imageStep n σ (e.stray id m) := by
  cases m with
  | error t cause => exact finish_image e hk _
  | data t payload => exact emit_image e hk _ (.receiving (.replying _))
  | ack t => exact emit_image e hk _ (.receiving (.replying _))

theorem receiveData_image (hk : n.keeps id = true) (t : TransactionId) (payload : Octets) :
    (e.image n σ).receiveData (n.number id) t payload =
      imageStep n σ (e.receiveData id t payload) := by
  have hheld : (e.image n σ).incoming.isHeld t.value.toNat = e.incoming.isHeld t.value.toNat :=
    Table.isHeld_renumber
  unfold receiveData
  rw [hheld]
  by_cases hh : e.incoming.isHeld t.value.toNat = true
  · rw [if_pos hh, if_pos hh]
    exact emit_image e hk _ (.receiving (.replying _))
  · rw [if_neg hh, if_neg hh]
    rcases judgeRequest payload with cause | request
    · exact emit_image e hk _ (.receiving (.replying _))
    · exact become_image e hk (.receiving (.opening t request))

/-- A message is posted to whoever has the slot, and who that is does not change. -/
theorem receiveMessage_image (hσ : Function.Injective σ) (hk : n.keeps id = true) (m : Message) :
    (e.image n σ).receiveMessage (n.number id) m = imageStep n σ (e.receiveMessage id m) := by
  have hout : (e.image n σ).outgoing = e.outgoing := rfl
  have hpost : (e.image n σ).incoming.post m.transaction.value.toNat m =
      (e.incoming.post m.transaction.value.toNat m).map (Table.renumber σ) :=
    Table.post_renumber hσ m
  unfold receiveMessage
  simp only [hout, hpost]
  by_cases hflag : m.transaction.flag = true
  · rw [if_pos hflag, if_pos hflag]
    rcases e.outgoing.post m.transaction.value.toNat m with u | outgoing
    · exact stray_image e hk m
    · exact finish_image { e with outgoing } hk _
  · rw [if_neg hflag, if_neg hflag]
    cases m with
    | data t payload => exact receiveData_image e hk t payload
    | ack t | error t cause =>
      simp only
      rcases e.incoming.post _ _ with u | incoming
      · exact stray_image e hk _
      · exact finish_image { e with incoming } hk _

/-- A transaction that is opened takes the next serial number, which is the next one again. -/
theorem openService_image (hnext : σ (e.incoming.issued + 1) = σ e.incoming.issued + 1)
    (hk : n.keeps id = true) (t : TransactionId) (request : Relay.Message) :
    (e.image n σ).openService (n.number id) t request =
      imageStep n σ (e.openService id t request) := by
  have hlease : (e.image n σ).incoming.leaseAt? t.value.toNat () =
      (e.incoming.leaseAt? t.value.toNat ()).map fun (l, t) => (l.renumber σ, t.renumber σ) :=
    Table.leaseAt?_renumber hnext ()
  unfold openService
  rw [hlease]
  rcases e.incoming.leaseAt? t.value.toNat () with _ | ⟨lease, incoming⟩
  · exact emit_image e hk _ (.receiving (.replying (.ok ())))
  · exact emit_image { e with incoming } hk _
      (.receiving (.accepting ⟨request, lease, t.reverse⟩))

theorem receiveOctets_image (hk : n.keeps id = true) (s : Octets) :
    (e.image n σ).receiveOctets (n.number id) s = imageStep n σ (e.receiveOctets id s) := by
  unfold receiveOctets
  split
  · exact become_image e hk (.receiving (.arrived _))
  · split
    · exact emit_image e hk _
        (.receiving (.replying (.error (.control .messageTypeNonExistent))))
    · exact finish_image e hk _
  · exact finish_image e hk _

theorem runReceiving_image (hσ : Function.Injective σ)
    (hnext : σ (e.incoming.issued + 1) = σ e.incoming.issued + 1) (hk : n.keeps id = true)
    (r : Receiving) : (e.image n σ).runReceiving (n.number id) (r.renumber σ) =
      imageStep n σ (e.runReceiving id r) := by
  cases r with
  | octets s => exact receiveOctets_image e hk s
  | arrived m => exact receiveMessage_image e hσ hk m
  | opening t request => exact openService_image e hnext hk t request
  | withdrawing lease failure =>
    have hdrop : (e.image n σ).incoming.drop (lease.renumber σ) =
        (e.incoming.drop lease).renumber σ := Table.drop_renumber hσ
    simp only [runReceiving, Receiving.renumber, hdrop]
    exact finish_image { e with incoming := e.incoming.drop lease } hk _
  | accepting service => rfl
  | replying outcome => rfl

/-! ## What each move does -/

/-- A task that runs does the same under its other number. -/
theorem run_image (hσ : Function.Injective σ)
    (hnext : σ (e.incoming.issued + 1) = σ e.incoming.issued + 1) (hk : n.keeps id = true) :
    (e.image n σ).run (n.number id) = imageStep n σ (e.run id) := by
  unfold run
  rw [task?_image e hk]
  rcases e.task? id with _ | ⟨s | s | r⟩
  · rfl
  · exact runSending_image e hk s
  · exact runServing_image e hσ hk s
  · exact runReceiving_image e hσ hnext hk r

/-- A move that adds a task. -/
def spawns (e : Entity) : Move Input → Bool
  | .start _ => true
  | .sent id (.ok ()) =>
    match e.task? id with
    | some (.receiving (.accepting _)) => true
    | _ => false
  | _ => false

theorem sentSending_image (hk : n.keeps id = true) (result : Except Failure Unit) (s : Sending) :
    (e.image n σ).sentSending (n.number id) result s = imageStep n σ (e.sentSending id result s) := by
  cases s with
  | delivering s handover =>
    cases handover with
    | transmitting repeated =>
      rcases result with failure | _
      · exact become_image e hk (.sending _)
      · exact become_image e hk (.sending _)
    | awaiting repeated deadline => rfl
  | concluding lease outcome =>
    rcases result with failure | _
    · exact become_image e hk (.sending _)
    · exact become_image e hk (.sending _)
  | _ => rfl

theorem sentServing_image (hk : n.keeps id = true) (result : Except Failure Unit) (s : Serving) :
    (e.image n σ).sentServing (n.number id) result (s.renumber σ) =
      imageStep n σ (e.sentServing id result s) := by
  cases s with
  | delivering lease data handover =>
    cases handover with
    | transmitting repeated =>
      rcases result with failure | _
      · exact become_image e hk (.serving (.closing lease))
      · exact become_image e hk (.serving (.delivering lease data (.awaiting repeated _)))
    | awaiting repeated deadline => rfl
  | refusing lease => exact become_image e hk (.serving (.closing lease))
  | _ => rfl

/-- Only a task that hands a request over starts another one, which has to be numbered next. -/
theorem sentReceiving_image (hk : n.keeps id = true) (result : Except Failure Unit) (r : Receiving)
    (hheir : ∀ service, r = .accepting service → result = .ok () → n.Continues e.started) :
    (e.image n σ).sentReceiving (n.number id) result (r.renumber σ) =
      imageStep n σ (e.sentReceiving id result r) := by
  cases r with
  | accepting service =>
    rcases result with failure | _
    · exact become_image e hk (.receiving (.withdrawing service.lease failure))
    · have hspawn := spawn_image (σ := σ) e (hheir service rfl rfl) (.serving (.accepted service))
      exact (congrArg (finish · (n.number id) _) hspawn).trans (finish_image _ hk _)
  | replying outcome =>
    rcases result with failure | _
    · exact finish_image e hk _
    · exact finish_image e hk _
  | _ => rfl

theorem sent_image (hk : n.keeps id = true) (result : Except Failure Unit)
    (hspawn : e.spawns (.sent id result) = true → n.Continues e.started) :
    (e.image n σ).sent (n.number id) result = imageStep n σ (e.sent id result) := by
  unfold sent
  rw [task?_image e hk]
  rcases ht : e.task? id with _ | ⟨s | s | r⟩
  · rfl
  · exact sentSending_image e hk result s
  · exact sentServing_image e hk result s
  · refine sentReceiving_image e hk result r ?_
    rintro service rfl rfl
    exact hspawn (by simp [spawns, ht])

theorem answered_image (hk : n.keeps id = true) (outcome : ShortMessage.Service.Outcome)
    (now : Timestamp) : (e.image n σ).answered (n.number id) outcome now =
      imageStep n σ (e.answered id outcome now) := by
  unfold answered
  rw [task?_image e hk]
  rcases e.task? id with _ | ⟨s | s | r⟩
  · rfl
  · rfl
  · cases s with
    | handling s => exact reply_image e hk s outcome now
    | _ => rfl
  · rfl

/-- Whether a time limit is over depends on the clock and on no number. -/
theorem expire_image (hσ : Function.Injective σ) (hk : n.keeps id = true) :
    (e.image n σ).expire (n.number id) = imageStep n σ (e.expire id) := by
  have hclock : (e.image n σ).clock = e.clock := rfl
  have hconfig : (e.image n σ).config = e.config := rfl
  have hout : (e.image n σ).outgoing = e.outgoing := rfl
  have hpending (lease : Lease) :
      (e.image n σ).incoming.pending (lease.renumber σ) = e.incoming.pending lease :=
    Table.pending_renumber hσ
  unfold expire
  rw [task?_image e hk, hclock, hconfig, hout]
  rcases e.task? id with _ | ⟨s | s | r⟩
  · rfl
  · cases s with
    | delivering s handover =>
      cases handover with
      | transmitting repeated => rfl
      | awaiting repeated deadline =>
        simp only [Option.map_some, Task.renumber]
        split
        · split
          · exact emit_image e hk s.data (.sending (.delivering s (.transmitting (repeated + 1))))
          · exact become_image e hk (.sending (.closing s.lease _))
        · rfl
    | awaitingAnswer s deadline =>
      simp only [Option.map_some, Task.renumber]
      split
      · exact become_image e hk (.sending (.expired s))
      · rfl
    | _ => rfl
  · cases s with
    | delivering lease data handover =>
      cases handover with
      | transmitting repeated => rfl
      | awaiting repeated deadline =>
        simp only [Option.map_some, Task.renumber, Serving.renumber, hpending]
        split
        · split
          · exact emit_image e hk data (.serving (.delivering lease data (.transmitting (repeated + 1))))
          · exact become_image e hk (.serving (.closing lease))
        · rfl
    | _ => rfl
  · rfl

theorem outgoingLease?_renumber (task : Task) :
    outgoingLease? (task.renumber σ) = outgoingLease? task := by
  rcases task with s | s | r
  · rfl
  · cases s <;> rfl
  · cases r <;> rfl

theorem incomingLease?_renumber (task : Task) :
    incomingLease? (task.renumber σ) = (incomingLease? task).map (Lease.renumber σ) := by
  rcases task with s | s | r
  · cases s <;> rfl
  · cases s <;> rfl
  · cases r <;> rfl

/-- Only the lease that a task has matters. -/
theorem renumber_congr {τ : Nat → Nat} {task : Task}
    (hsame : ∀ l, incomingLease? task = some l → τ l.serial = σ l.serial) :
    task.renumber τ = task.renumber σ := by
  have hlease {l : Lease} (hl : incomingLease? task = some l) : l.renumber τ = l.renumber σ := by
    simp only [Lease.renumber, hsame l hl]
  rcases task with s | s | r
  · rfl
  · cases s <;> simp only [Task.renumber, Serving.renumber, Service.renumber, hlease rfl]
  · cases r with
    | accepting service => simp only [Task.renumber, Receiving.renumber, Service.renumber, hlease rfl]
    | withdrawing lease failure => simp only [Task.renumber, Receiving.renumber, hlease rfl]
    | _ => rfl

theorem abort_image (hσ : Function.Injective σ) (hk : n.keeps id = true) :
    (e.image n σ).abort (n.number id) = imageStep n σ (e.abort id) := by
  unfold abort
  rw [task?_image e hk]
  rcases e.task? id with _ | task
  · rfl
  · have hwithout : without (e.image n σ).incoming (incomingLease? (task.renumber σ)) =
        (without e.incoming (incomingLease? task)).renumber σ := by
      rw [incomingLease?_renumber]
      cases incomingLease? task with
      | none => rfl
      | some lease => exact Table.drop_renumber hσ
    simp only [Option.map_some, outgoingLease?_renumber, hwithout]
    have hremove := remove_image (σ := σ) { e with
      outgoing := without e.outgoing (outgoingLease? task)
      incoming := without e.incoming (incomingLease? task) } hk
    exact congrArg (fun e => some (e, [])) hremove

/-- What the tasks do that are not left out comes to the same under other numbers. -/
theorem step?_image (hσ : Function.Injective σ)
    (hnext : σ (e.incoming.issued + 1) = σ e.incoming.issued + 1) {move : Move Input}
    (hk : ∀ id, actor? move = some id → n.keeps id = true)
    (hspawn : e.spawns move = true → n.Continues e.started) :
    (e.image n σ).step? (move.renumber n.number) = imageStep n σ (e.step? move) := by
  cases move with
  | start input =>
    have htask : (taskFor input).renumber σ = taskFor input := by cases input <;> rfl
    have hadd := spawn_image (σ := σ) e (hspawn rfl) (taskFor input)
    rw [htask] at hadd
    exact congrArg (fun e => some (e, [])) hadd
  | run id => exact run_image e hσ hnext (hk id rfl)
  | sent id result => exact sent_image e (hk id rfl) result hspawn
  | answered id outcome now => exact answered_image e (hk id rfl) outcome now
  | expire id => exact expire_image e hσ (hk id rfl)
  | abort id => exact abort_image e hσ (hk id rfl)
  | elapse duration => rfl

end

end Entity

end ShortMessage.Control
