import ShortMessage.Proofs.Answering.Control
import ShortMessage.Proofs.Control.Occupancy

/-!
# One call for each request

A transaction of the other side is one lease of an incoming slot.  The application is asked about
the request on it once its acknowledgement could be sent (`Admitted`) and the task that serves it
takes its first step (`Begun`), and never a second time.

* `called_iff` — a step asks the application for a transaction if and only if the task that serves
  it takes its first step;
* `Unasked` — before that step nothing was asked, after it the request was admitted; kept by every
  step;
* `single_of_run` — so there is one call for each lease, or none (`Single`).
-/

namespace ShortMessage.Control

open Transaction

/-! ## What a history says of a call -/

/-- What is asked of the application in a step by the task that has a lease. -/
def calling? (lease : Lease) (tr : Transit) : Option ShortMessage.Service.Call :=
  match tr.events with
  | [.called id call] => if tr.before.leaseIn? id = some lease then some call else none
  | _ => none

/-- All that is asked of the application for a transaction of the other side. -/
def callings (h : List Transit) (lease : Lease) : List ShortMessage.Service.Call :=
  h.filterMap (calling? lease)

/-- The acknowledgement of a request could be sent. -/
def Admitted (h : List Transit) (lease : Lease) (request : Relay.Message) : Prop :=
  ∃ tr ∈ h, ∃ id service, tr.move = .sent id (.ok ()) ∧
    tr.before.task? id = some (.receiving (.accepting service)) ∧ service.lease = lease ∧
    service.request = request

/-- The task that serves a request has taken its first step. -/
def Begun (h : List Transit) (lease : Lease) : Prop :=
  ∃ tr ∈ h, ∃ id service, tr.move = .run id ∧
    tr.before.task? id = some (.serving (.accepted service)) ∧ service.lease = lease

/-- How often the application is asked in a history. -/
structure Single (h : List Transit) : Prop where
  once : ∀ lease, (callings h lease).length ≤ 1
  called : ∀ {lease}, callings h lease ≠ [] ↔ (∃ request, Admitted h lease request) ∧ Begun h lease
  /-- It is asked what the request on the transaction asks. -/
  asked : ∀ {lease call}, call ∈ callings h lease →
    ∃ request, Admitted h lease request ∧ ShortMessage.Service.call? request = some call
  /-- It is not asked for anything else. -/
  leased : ∀ {tr id call}, tr ∈ h → .called id call ∈ tr.events → ∃ lease,
    tr.before.leaseIn? id = some lease ∧ lease.index < transactionCount ∧
      takings Entity.incoming h lease = 1 ∧ callings h lease = [call]

section

variable {config : Config} {h : List Transit} {tr : Transit} {e e' : Entity} {id : TaskId}
  {move : Move Input} {events : List (Event Message Result)} {lease : Lease} {task : Task}
  {call : ShortMessage.Service.Call} {request : Relay.Message} {service : Service}

theorem callings_snoc :
    callings (h ++ [tr]) lease = callings h lease ++ (calling? lease tr).toList := filterMap_snoc _

theorem callings_snoc_of_none (hc : calling? lease tr = none) :
    callings (h ++ [tr]) lease = callings h lease := by
  rw [callings_snoc, hc]
  exact List.append_nil _

/-- A call is made for the transaction of the task that makes it. -/
theorem calling?_eq_some (hc : calling? lease tr = some call) :
    ∃ id, tr.events = [.called id call] ∧ tr.before.leaseIn? id = some lease := by
  unfold calling? at hc
  split at hc
  · rename_i id call' hev
    split at hc
    · rename_i hl
      cases hc
      exact ⟨id, hev, hl⟩
    · cases hc
  · cases hc

theorem Admitted.snoc (ha : Admitted h lease request) : Admitted (h ++ [tr]) lease request := by
  obtain ⟨tr', htr, hrest⟩ := ha
  exact ⟨tr', List.mem_append_left _ htr, hrest⟩

/-- A task begins to serve in the step in which it finds its request accepted. -/
theorem begun_snoc : Begun (h ++ [tr]) lease ↔ Begun h lease ∨ ∃ id service, tr.move = .run id ∧
    tr.before.task? id = some (.serving (.accepted service)) ∧ service.lease = lease := by
  unfold Begun
  simp only [List.mem_append, List.mem_singleton, or_and_right, exists_or, exists_eq_left]

/-! ## Who asks -/

/-- The application is asked by a task that serves a request, in its first step. -/
theorem Entity.Rule.calls (hr : Entity.Rule e move e' events) (hev : .called id call ∈ events) :
    ∃ service, move = .run id ∧ e.task? id = some (.serving (.accepted service)) ∧
      ShortMessage.Service.call? service.request = some call ∧ events = [.called id call] := by
  cases hr with
  | start input | elapsed duration => cases hev
  | handedOver ht => simp at hev
  | @act j move task task' outgoing incoming events ht ha =>
    cases ha with
    | called hc =>
      obtain ⟨rfl, rfl⟩ : id = j ∧ call = _ := by simpa using hev
      exact ⟨_, rfl, ht, hc, rfl⟩
    | delivered htake hf | took htake hf | tookLate htake hf => cases hf <;> simp [Entity.saying] at hev
    | _ => simp at hev

/-- A task that serves a request asks the application in its first step. -/
theorem Entity.Rule.begins (hr : Entity.Rule e (.run id) e' events)
    (ht : e.task? id = some (.serving (.accepted service)))
    (hasks : ShortMessage.Service.asks service.request = true) :
    ∃ call, ShortMessage.Service.call? service.request = some call ∧ events = [.called id call] := by
  obtain ⟨call, hcall⟩ := ShortMessage.Service.call?_of_asks hasks
  cases hr with
  | act ht' ha =>
    cases ha with
    | called hc =>
      rw [ht] at ht'
      cases ht'
      exact ⟨_, hc, rfl⟩
    | uncalled hc =>
      rw [ht] at ht'
      cases ht'
      rw [hcall] at hc
      cases hc
    | _ => rw [ht] at ht'; cases ht'

theorem called_iff (ha : Attending config h e) (hr : Entity.Rule e move e' events) :
    (∃ call, calling? lease ⟨e, move, events, e'⟩ = some call) ↔ ∃ id service, move = .run id ∧
      e.task? id = some (.serving (.accepted service)) ∧ service.lease = lease := by
  constructor
  · rintro ⟨call, hc⟩
    obtain ⟨id, hev, hl⟩ := calling?_eq_some hc
    simp only at hev hl
    obtain ⟨service, hmove, ht, -, -⟩ := hr.calls (by rw [hev]; exact List.mem_singleton.2 rfl)
    rw [Entity.leaseIn?_eq ht] at hl
    exact ⟨id, service, hmove, ht, Option.some.inj hl⟩
  · rintro ⟨id, service, rfl, ht, hlease⟩
    obtain ⟨call, -, rfl⟩ := hr.begins ht (ha.asks ht rfl)
    have hl : e.leaseIn? id = some lease := (Entity.leaseIn?_eq ht).trans (congrArg some hlease)
    exact ⟨call, by simp [calling?, hl]⟩

/-! ## Requests about which nothing was asked -/

/-- The phases of a task that has a transaction and has not asked the application. -/
def Task.isWaiting : Task → Bool
  | .receiving _ | .serving (.accepted _) => true
  | _ => false

/-- What holds along every run. -/
structure Unasked (h : List Transit) (e : Entity) : Prop where
  unissued : ∀ {lease}, e.incoming.issued ≤ lease.serial → callings h lease = []
  waiting : ∀ {id task lease}, e.task? id = some task → Entity.incomingLease? task = some lease →
    task.isWaiting = true → callings h lease = []
  admitted : ∀ {id service}, e.task? id = some (.serving (.accepted service)) →
    Admitted h service.lease service.request

theorem unasked_ofConfig (config : Config) : Unasked [] (.ofConfig config) where
  unissued _ := rfl
  waiting := by rintro _ _ _ ⟨⟩
  admitted := by rintro _ _ ⟨⟩

/-- A task that waits to be served came to its transaction in this step, or it had it before. -/
theorem Entity.Act.waits {task' : Task} {outgoing incoming : Table Message Unit}
    (ha : Entity.Act e id move task (some task') outgoing incoming events) (ho : e.Orderly)
    (hl : Entity.incomingLease? task' = some lease) (hwaits : task'.isWaiting = true) :
    (e.incoming.issued ≤ lease.serial ∨
      Entity.incomingLease? task = some lease ∧ task.isWaiting = true) ∧
      ∀ call, .called id call ∉ events := by
  generalize hk : some task' = task'' at ha
  cases ha with
  | delivered htake hf | took htake hf | tookLate htake hf => cases hf <;> cases hk <;> cases hl
  | accepted hlease =>
    cases hk
    cases hl
    obtain ⟨hleased, -⟩ := ho.incoming.sound.leased_of_leaseAt? hlease
    exact ⟨.inl (Nat.le_of_eq hleased.serial.symm), by simp⟩
  | unaccepted =>
    cases hk
    exact ⟨.inr ⟨hl, rfl⟩, by simp⟩
  | called | uncalled | replied | unreplied | confirmed | replyTransmitted | replyUntransmitted |
    refusalTransmitted | replyRepeated | replyGivenUp =>
    cases hk
    cases hwaits
  | _ => first | (cases hk; cases hl) | cases hk

theorem Unasked.waiting_step (hu : Unasked h e) (ho : e.Orderly) (hr : Entity.Rule e move e' events)
    (ht' : e'.task? id = some task) (hl : Entity.incomingLease? task = some lease)
    (hwaits : task.isWaiting = true) : callings (h ++ [⟨e, move, events, e'⟩]) lease = [] := by
  have hsilent (hnone : callings h lease = [])
      (hcalls : ∀ j call, e.leaseIn? j = some lease → .called j call ∉ events) :
      callings (h ++ [⟨e, move, events, e'⟩]) lease = [] := by
    refine (callings_snoc_of_none ?_).trans hnone
    rcases hc : calling? lease ⟨e, move, events, e'⟩ with _ | call
    · rfl
    · obtain ⟨j, hev, hj⟩ := calling?_eq_some hc
      simp only at hev hj
      exact absurd (by rw [hev]; exact List.mem_singleton.2 rfl) (hcalls j call hj)
  cases hr.standing ho ht' with
  | kept ht hid =>
    refine hsilent (hu.waiting ht hl hwaits) fun j call hj hev => hid ?_
    rw [hr.task_of_mem hev]
    exact congrArg some (ho.incoming.unique hj ((Entity.leaseIn?_eq ht).trans hl))
  | acted ht hact =>
    obtain ⟨hold, hcalls⟩ := hact.waits ho hl hwaits
    refine hsilent ?_ fun j call _ hev => ?_
    · obtain hserial | ⟨hl', hwaits'⟩ := hold
      · exact hu.unissued hserial
      · exact hu.waiting ht hl' hwaits'
    · obtain rfl : id = j := Option.some.inj (hact.actor.symm.trans (hr.task_of_mem hev))
      exact hcalls call hev
  | started input => cases input <;> cases hl
  | heir ht hmove hev =>
    cases hl
    exact hsilent (hu.waiting ht rfl rfl) (by simp [hev])

/-- A request is handed over to be served only after its acknowledgement was sent. -/
theorem Unasked.admitted_step (hu : Unasked h e) (ho : e.Orderly)
    (hr : Entity.Rule e move e' events)
    (ht' : e'.task? id = some (.serving (.accepted service))) :
    Admitted (h ++ [⟨e, move, events, e'⟩]) service.lease service.request := by
  generalize hk : Task.serving (.accepted service) = task at ht'
  cases hr.standing ho ht' with
  | kept ht => exact (hu.admitted (hk ▸ ht)).snoc
  | @acted task task' outgoing incoming ht hact =>
    subst hk
    generalize hk : some (Task.serving (.accepted service)) = task' at hact
    cases hact with
    | delivered htake hf | took htake hf | tookLate htake hf => cases hf <;> cases hk
    | _ => cases hk
  | started input => cases input <;> cases hk
  | heir ht hmove =>
    cases hk
    exact ⟨_, List.mem_append_right _ (List.mem_singleton.2 rfl), _, _, hmove, ht, rfl, rfl⟩

theorem Unasked.step (hu : Unasked h e) (ho : e.Orderly) (hr : Entity.Rule e move e' events) :
    Unasked (h ++ [⟨e, move, events, e'⟩]) e' := by
  refine ⟨fun {lease} hserial => ?_, hu.waiting_step ho hr, hu.admitted_step ho hr⟩
  have hserial' := Nat.le_trans (hr.issued_le ho) hserial
  refine (callings_snoc_of_none ?_).trans (hu.unissued hserial')
  rcases hc : calling? lease ⟨e, move, events, e'⟩ with _ | call
  · rfl
  · obtain ⟨j, -, hj⟩ := calling?_eq_some hc
    exact absurd (ho.serial_lt hj) (Nat.not_lt.2 hserial')

/-! ## Calls -/

/-- What is known of the calls for one transaction. -/
structure Counted (h : List Transit) (lease : Lease) : Prop where
  once : (callings h lease).length ≤ 1
  begun : callings h lease ≠ [] ↔ Begun h lease
  asked : ∀ {call}, call ∈ callings h lease →
    ∃ request, Admitted h lease request ∧ ShortMessage.Service.call? request = some call

theorem Counted.step (hc : Counted h lease) (hu : Unasked h e) (ha : Attending config h e)
    (hr : Entity.Rule e move e' events) : Counted (h ++ [⟨e, move, events, e'⟩]) lease := by
  have hiff : (∃ call, calling? lease ⟨e, move, events, e'⟩ = some call) ↔ ∃ id service,
      move = .run id ∧ e.task? id = some (.serving (.accepted service)) ∧ service.lease = lease :=
    called_iff ha hr
  rcases hnow : calling? lease ⟨e, move, events, e'⟩ with _ | call
  · have hsame := callings_snoc_of_none (h := h) hnow
    refine ⟨hsame ▸ hc.once, ?_, fun {call} hcall => ?_⟩
    · have hno := mt hiff.2 (by simp [hnow])
      rw [hsame, begun_snoc, hc.begun]
      exact ⟨.inl, fun hb => hb.resolve_right hno⟩
    · obtain ⟨request, hadmitted, hcall⟩ := hc.asked (hsame ▸ hcall)
      exact ⟨request, hadmitted.snoc, hcall⟩
  · obtain ⟨id, service, hmove, ht, hlease⟩ := hiff.1 ⟨call, hnow⟩
    subst hmove hlease
    have hnone : callings h service.lease = [] := hu.waiting ht rfl rfl
    have hone : callings (h ++ [⟨e, .run id, events, e'⟩]) service.lease = [call] := by
      rw [callings_snoc, hnone, hnow]
      rfl
    refine ⟨by rw [hone]; exact Nat.le_refl _, ?_, fun {call'} hcall => ?_⟩
    · rw [hone, begun_snoc]
      exact iff_of_true (List.cons_ne_nil _ _) (.inr ⟨id, service, rfl, ht, rfl⟩)
    · rw [hone, List.mem_singleton] at hcall
      obtain ⟨j, hev, -⟩ := calling?_eq_some hnow
      have hmem : .called j call ∈ events := by
        rw [show events = [.called j call] from hev]
        exact List.mem_singleton.2 rfl
      obtain ⟨service', hmove, ht', hasked, -⟩ := hr.calls hmem
      cases hmove
      rw [ht] at ht'
      cases ht'
      exact ⟨service.request, (hu.admitted ht).snoc, hcall ▸ hasked⟩

/-- The counts hold in every run, for every lease. -/
theorem counted_of_run (hrun : Run Entity.step? (.ofConfig config) h e) (lease : Lease) :
    Unasked h e ∧ Counted h lease := by
  induction hrun with
  | rest => exact ⟨unasked_ofConfig config, Nat.zero_le _, by simp [callings, Begun], by simp [callings]⟩
  | step hfront hs ih =>
    have ha := attending_of_run hfront
    have hr := Entity.rule_of_step? hs
    exact ⟨ih.1.step ha.attentive.orderly hr, ih.2.step ih.1 ha hr⟩

/-- A call is the only one for a transaction, and the transaction got its slot. -/
theorem leased_of_called (hrun : Run Entity.step? (.ofConfig config) h e) (htr : tr ∈ h)
    (hev : .called id call ∈ tr.events) : ∃ lease, tr.before.leaseIn? id = some lease ∧
      lease.index < transactionCount ∧ takings Entity.incoming h lease = 1 ∧
      callings h lease = [call] := by
  obtain ⟨front, back, rfl⟩ := List.append_of_mem htr
  obtain ⟨hfront, hs, -⟩ := hrun.split
  have ho := (attending_of_run hfront).attentive.orderly
  obtain ⟨service, -, ht, -, hone⟩ := (Entity.rule_of_step? hs).calls hev
  have hl := Entity.leaseIn?_eq ht
  obtain ⟨box, hbox⟩ := ho.incoming.mailbox hl
  have htaken := (booked_of_run hfront).incoming.turnover.taken hbox
  refine ⟨service.lease, hl, ?_, ?_, ?_⟩
  · exact ho.incoming_length ▸ ho.incoming.sound.index_lt hbox
  · refine Nat.le_antisymm ((booked_of_run hrun).incoming.turnover.once _) ?_
    rw [takings_append, htaken]
    exact Nat.le_add_right _ _
  · have hmem : call ∈ callings (front ++ tr :: back) service.lease :=
      List.mem_filterMap.2 ⟨tr, htr, by simp [calling?, hone, hl, Entity.incomingLease?]⟩
    obtain ⟨call', hsingle⟩ := List.length_eq_one_iff.1
      (Nat.le_antisymm (counted_of_run hrun service.lease).2.once (List.length_pos_of_mem hmem))
    rw [hsingle, List.mem_singleton] at hmem
    rw [hsingle, hmem]

theorem single_of_run (hrun : Run Entity.step? (.ofConfig config) h e) : Single h where
  once lease := (counted_of_run hrun lease).2.once
  called {lease} := by
    obtain ⟨-, hc⟩ := counted_of_run hrun lease
    rw [hc.begun]
    refine ⟨fun hb => ⟨?_, hb⟩, And.right⟩
    obtain ⟨call, hcall⟩ := List.exists_mem_of_ne_nil _ (hc.begun.2 hb)
    obtain ⟨request, hadmitted, -⟩ := hc.asked hcall
    exact ⟨request, hadmitted⟩
  asked {lease call} := (counted_of_run hrun lease).2.asked
  leased := leased_of_called hrun

end

end ShortMessage.Control
