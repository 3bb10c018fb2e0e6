import ShortMessage.Proofs.Control.History

/-!
# What one message to send looks like

`Trace` is all that others see of a message to send: copies of its data at equal distances, and then
the last word on its transaction if there is one.  `Verdict` adds what the message comes to.

`Stage` ties the place at which the message stands to its history, and is kept by every step:

* `Stage.of_ne` — a step of another task, or of the clock;
* `Stage.opened`, `Stage.repeated`, `Stage.gaveUp` — the first copy, a further one, and none any more;
* `Underway.follow` — a message of the other side is taken;
* `Stage.step` — any step of the message itself.
-/

namespace ShortMessage.Control

open Transaction

/-- Copies of a message at equal distances. -/
def copies (data : Message) (start distance count : Nat) : List (Nat × Message) :=
  (List.range count).map fun i => (start + i * distance, data)

/-- The messages of a task that has opened the transaction `t` for `m`: `count` copies of the data,
each sent while it has the transaction, and then the last word if there is one.  What has come for
the task came on the same transaction. -/
structure Trace (config : Config) (h : List Transit) (id : TaskId) (m : Relay.Message)
    (t : TransactionId) (payload : Octets) (start count : Nat) (last : Option (Nat × Message)) :
    Prop where
  encoded : m.encode = .ok payload
  flag : t.flag = false
  pos : 1 ≤ count
  le : count ≤ 1 + config.maxRetransmissions
  eq : sendings h id = copies (.data t payload) start config.ackTime count ++ last.toList
  held : ∀ tr ∈ h, (∃ p, .emitted id (.data t p) ∈ tr.events) → tr.after.holds id t.value = true
  received : ∀ x ∈ acceptances h id, x.transaction = t.reverse

/-- What a task that sends `m` comes to once it has the transaction `t`. -/
inductive Verdict (config : Config) (h : List Transit) (now : Nat) (id : TaskId)
    (m : Relay.Message) (t : TransactionId) : Outcome → Prop where
  /-- The message cannot be written. -/
  | unwritable {fault} : sendings h id = [] → m.encode = .error fault →
      Verdict config h now id m t (.error (.codec fault))
  /-- The answer has come, and is acknowledged. -/
  | answered {payload start count time t' reply answer} : m.isRequest = true →
      Trace config h id m t payload start count (some (time, .ack t)) →
      decisive h id = some (.data t' reply) → judgeAnswer m reply = .ok answer →
      Verdict config h now id m t (.ok (some answer))
  /-- Something else has come, and is refused. -/
  | refused {payload start count time t' reply cause} : m.isRequest = true →
      Trace config h id m t payload start count (some (time, .error t cause)) →
      decisive h id = some (.data t' reply) → judgeAnswer m reply = .error cause →
      Verdict config h now id m t (.error (.control cause))
  /-- The other side has ended the transaction. -/
  | ended {payload start count t' cause} :
      Trace config h id m t payload start count none → decisive h id = some (.error t' cause) →
      Verdict config h now id m t (.error (.control cause))
  /-- The message has arrived. -/
  | arrived {payload start count} : m.isRequest = false →
      Trace config h id m t payload start count none → Verdict config h now id m t (.ok none)
  /-- No copy was acknowledged in time. -/
  | gaveUp {payload start} :
      Trace config h id m t payload start (1 + config.maxRetransmissions) none →
      now = start + (1 + config.maxRetransmissions) * config.ackTime →
      Verdict config h now id m t (.error (.control .networkFailure))
  /-- The message was acknowledged, but no answer came in time. -/
  | unanswered {payload start count} : m.isRequest = true →
      Trace config h id m t payload start count none →
      Verdict config h now id m t (.error (.relayCause .resourcesUnavailable))

/-! ## A history that grows by a step -/

section

variable {config : Config} {h : List Transit} {id : TaskId} {tr : Transit} {m : Relay.Message}
  {t : TransactionId} {payload : Octets} {start count now : Nat} {last : Option (Nat × Message)}
  {outcome : Outcome}

theorem copies_succ (data : Message) (start distance count : Nat) :
    copies data start distance (count + 1) =
      copies data start distance count ++ [(start + count * distance, data)] := by
  simp [copies, List.range_succ]

theorem received_snoc (hr : ∀ x ∈ acceptances h id, x.transaction = t.reverse)
    (hacc : ∀ x ∈ acceptance? id tr, x.transaction = t.reverse) :
    ∀ x ∈ acceptances (h ++ [tr]) id, x.transaction = t.reverse := by
  intro x hx
  rw [acceptances_snoc] at hx
  rcases List.mem_append.1 hx with hx | hx
  · exact hr x hx
  · exact hacc x (Option.mem_toList.1 hx)

theorem Trace.snoc (ht : Trace config h id m t payload start count last)
    (hem : tr.events.filterMap (·.emittedBy? id) = [])
    (hacc : ∀ x ∈ acceptance? id tr, x.transaction = t.reverse) :
    Trace config (h ++ [tr]) id m t payload start count last := by
  refine ⟨ht.encoded, ht.flag, ht.pos, ht.le, (sendings_snoc_of_nil hem).trans ht.eq, ?_,
    received_snoc ht.received hacc⟩
  rintro x hx ⟨p, hp⟩
  rcases List.mem_append.1 hx with hx | hx
  · exact ht.held x hx ⟨p, hp⟩
  · obtain rfl := List.mem_singleton.1 hx
    have := emitted_mem_filterMap hp
    rw [hem] at this
    cases this

/-- The last word. -/
theorem Trace.conclude {x : Message} (ht : Trace config h id m t payload start count none)
    (hev : tr.events = [.emitted id x]) (hx : ∀ t p, x ≠ .data t p)
    (hnone : acceptance? id tr = none) :
    Trace config (h ++ [tr]) id m t payload start count (some (tr.before.clock, x)) := by
  refine ⟨ht.encoded, ht.flag, ht.pos, ht.le, ?_, ?_, received_snoc ht.received (by simp [hnone])⟩
  · rw [sendings_snoc, ht.eq, hev]
    simp [Event.emittedBy?]
  · rintro y hy ⟨p, hp⟩
    rcases List.mem_append.1 hy with hy | hy
    · exact ht.held y hy ⟨p, hp⟩
    · obtain rfl := List.mem_singleton.1 hy
      rw [hev] at hp
      cases List.mem_singleton.1 hp
      exact absurd rfl (hx t p)

/-- Another copy. -/
theorem Trace.repeat (ht : Trace config h id m t payload start count none)
    (hev : tr.events = [.emitted id (.data t payload)])
    (hclock : tr.before.clock = start + count * config.ackTime)
    (hcount : count ≤ config.maxRetransmissions) (hheld : tr.after.holds id t.value = true)
    (hnone : acceptance? id tr = none) :
    Trace config (h ++ [tr]) id m t payload start (count + 1) none := by
  refine ⟨ht.encoded, ht.flag, Nat.le_add_left _ _, by omega, ?_, ?_,
    received_snoc ht.received (by simp [hnone])⟩
  · rw [sendings_snoc, ht.eq, hev, copies_succ, hclock]
    simp [Event.emittedBy?]
  · rintro y hy ⟨p, hp⟩
    rcases List.mem_append.1 hy with hy | hy
    · exact ht.held y hy ⟨p, hp⟩
    · obtain rfl := List.mem_singleton.1 hy
      exact hheld

theorem Verdict.snoc (hv : Verdict config h now id m t outcome)
    (hem : tr.events.filterMap (·.emittedBy? id) = [])
    (hacc : ∀ x ∈ acceptance? id tr, x.transaction = t.reverse) :
    Verdict config (h ++ [tr]) now id m t outcome := by
  cases hv with
  | unwritable hs he => exact .unwritable ((sendings_snoc_of_nil hem).trans hs) he
  | answered hm ht hd hj => exact .answered hm (ht.snoc hem hacc) (decisive_snoc_of_some hd) hj
  | refused hm ht hd hj => exact .refused hm (ht.snoc hem hacc) (decisive_snoc_of_some hd) hj
  | ended ht hd => exact .ended (ht.snoc hem hacc) (decisive_snoc_of_some hd)
  | arrived hm ht => exact .arrived hm (ht.snoc hem hacc)
  | gaveUp ht hnow => exact .gaveUp (ht.snoc hem hacc) hnow
  | unanswered hm ht => exact .unanswered hm (ht.snoc hem hacc)

end

/-! ## Where a message to send stands -/

section

variable {config : Config} {h : List Transit} {e e' : Entity} {id : TaskId} {m : Relay.Message}
  {move : Move Input} {events : List (Event Message Result)} {payload : Octets}
  {start count : Nat} {s : Session} {phase : Sending}

/-- A session whose data was sent some times. -/
structure Underway (config : Config) (h : List Transit) (e : Entity) (id : TaskId)
    (m : Relay.Message) (s : Session) (payload : Octets) (start count : Nat) : Prop where
  message : s.message = m
  data : s.data = .data (ownTransaction s.lease) payload
  trace : Trace config h id m (ownTransaction s.lease) payload start count none
  waiting : Waiting h e id s.lease

/-- How far a message to send has come, by its history. -/
def Stage (config : Config) (h : List Transit) (e : Entity) (id : TaskId) (m : Relay.Message) :
    Sending → Prop
  | .opening m' => m' = m ∧ sendings h id = [] ∧ acceptances h id = []
  | .delivering s (.transmitting repeated) =>
    ∃ payload start, Underway config h e id m s payload start (repeated + 1) ∧
      e.clock = start + repeated * config.ackTime
  | .delivering s (.awaiting repeated deadline) =>
    ∃ payload start, Underway config h e id m s payload start (repeated + 1) ∧
      deadline = start + (repeated + 1) * config.ackTime ∧ e.clock ≤ deadline
  | .awaitingAnswer s _ | .expired s => m.isRequest = true ∧
    ∃ payload start count, Underway config h e id m s payload start count
  | .concluding lease outcome | .closing lease outcome =>
    Verdict config h e.clock id m (ownTransaction lease) outcome

theorem Underway.of_ne (hu : Underway config h e id m s payload start count) (ho : e.Orderly)
    (hr : Entity.Rule e move e' events) (hid : actor? move ≠ some id)
    (hl : e.leaseOut? id = some s.lease) :
    Underway config (h ++ [⟨e, move, events, e'⟩]) e' id m s payload start count := by
  obtain ⟨acks, hacks, hacc⟩ := hu.waiting
  refine ⟨hu.message, hu.data,
    hu.trace.snoc (hr.emits_nothing hid) fun x hx => Entity.acceptance?_transaction ho hl hx,
    acks, hacks, ?_⟩
  rw [acceptances_snoc, hacc, hr.pending_of_ne ho hid hl, List.append_assoc]

theorem Stage.of_ne (hs : Stage config h e id m phase) (ho : e.Orderly)
    (hr : Entity.Rule e move e' events) (hid : actor? move ≠ some id)
    (ht : e.task? id = some (.sending phase)) (htime : punctual ⟨e, move, events, e'⟩ = true) :
    Stage config (h ++ [⟨e, move, events, e'⟩]) e' id m phase := by
  have hem := hr.emits_nothing hid
  have hl := Entity.leaseOut?_eq ht
  have hclock := hr.clock_of_run ht htime
  cases phase with
  | opening m' =>
    obtain ⟨hm, hsend, hacc⟩ := hs
    refine ⟨hm, (sendings_snoc_of_nil hem).trans hsend, ?_⟩
    rcases ha : acceptance? id ⟨e, move, events, e'⟩ with _ | x
    · rw [acceptances_snoc, hacc, ha]
      rfl
    · obtain ⟨_, _, -, -, -, -, hholds⟩ := Entity.acceptance?_eq_some ha
      obtain ⟨holder, hl', -⟩ := Entity.holds_iff.1 hholds
      rw [hl] at hl'
      cases hl'
  | delivering s handover =>
    cases handover with
    | transmitting repeated =>
      obtain ⟨payload, start, hu, hnow⟩ := hs
      refine ⟨payload, start, hu.of_ne ho hr hid hl, (hclock (.inr ?_)).trans hnow⟩
      simp [Entity.sent, ht, Entity.sentSending, Entity.become]
    | awaiting repeated deadline =>
      obtain ⟨payload, start, hu, hd, hle⟩ := hs
      refine ⟨payload, start, hu.of_ne ho hr hid hl, hd, ?_⟩
      by_cases hm : ∃ d, move = .elapse d
      · obtain ⟨d, rfl⟩ := hm
        cases hr with
        | act ht' ha => cases ha
        | elapsed =>
          exact (Entity.of_punctual htime ht).2.2 (by simp [Entity.deadline?, ht])
      · rw [hr.clock_eq fun d hd => hm ⟨d, hd⟩]
        exact hle
  | awaitingAnswer s deadline =>
    obtain ⟨hm, payload, start, count, hu⟩ := hs
    exact ⟨hm, payload, start, count, hu.of_ne ho hr hid hl⟩
  | expired s =>
    obtain ⟨hm, payload, start, count, hu⟩ := hs
    exact ⟨hm, payload, start, count, hu.of_ne ho hr hid hl⟩
  | concluding lease outcome =>
    have hnow : e'.clock = e.clock :=
      hclock (.inr (by simp [Entity.sent, ht, Entity.sentSending, Entity.become]))
    show Verdict config _ e'.clock id m (ownTransaction lease) outcome
    rw [hnow]
    exact Verdict.snoc hs hem fun x hx => Entity.acceptance?_transaction ho hl hx
  | closing lease outcome =>
    have hnow : e'.clock = e.clock :=
      hclock (.inl (by simp [Entity.run, ht, Entity.runSending, Entity.finish]))
    show Verdict config _ e'.clock id m (ownTransaction lease) outcome
    rw [hnow]
    exact Verdict.snoc hs hem fun x hx => Entity.acceptance?_transaction ho hl hx

/-- What the next message of the other side leads to. -/
theorem Underway.follow {confirmed : Bool} {x : Message} {rest : List Message}
    {word : Option Message} (hu : Underway config h e id m s payload start count)
    (hf : Entity.Follow e s confirmed x phase word) (hreq : confirmed = true → m.isRequest = true)
    (hpending : e.outgoing.pending s.lease = x :: rest)
    (hrest : e'.outgoing.pending s.lease = rest)
    (hnone : acceptance? id ⟨e, move, Entity.saying id word, e'⟩ = none) :
    Stage config (h ++ [⟨e, move, Entity.saying id word, e'⟩]) e' id m phase := by
  obtain ⟨acks, hacks, hacc⟩ := hu.waiting
  have hmsg := hu.message
  subst hmsg
  have hacc' : acceptances (h ++ [⟨e, move, Entity.saying id word, e'⟩]) id = acks ++ x :: rest := by
    rw [acceptances_snoc, hnone, Option.toList_none, List.append_nil, hacc, hpending]
  have hisreq : (confirmed || s.message.isRequest) = true → s.message.isRequest = true := by
    cases confirmed with
    | true => exact fun _ => hreq rfl
    | false => exact fun hc => hc
  have hdata : s.data.transaction = ownTransaction s.lease := by rw [hu.data]; rfl
  have hrec : ∀ y ∈ acceptance? id ⟨e, move, Entity.saying id word, e'⟩,
      y.transaction = (ownTransaction s.lease).reverse := by simp [hnone]
  cases hf with
  | ended => exact .ended (hu.trace.snoc rfl hrec) (decisive_eq hacks rfl hacc')
  | @waits t hc =>
    refine ⟨hisreq hc, payload, start, count, rfl, hu.data, hu.trace.snoc rfl hrec,
      acks ++ [.ack t],
      ?_, ?_⟩
    · intro a ha
      rcases List.mem_append.1 ha with ha | ha
      · exact hacks a ha
      · rw [List.mem_singleton.1 ha]
        rfl
    · rw [hacc', hrest, List.append_assoc]
      rfl
  | arrived hc _ =>
    have hm : s.message.isRequest = false := by
      cases confirmed with
      | true => cases hc
      | false => exact hc
    exact .arrived hm (hu.trace.snoc rfl hrec)
  | answered hc hj =>
    rw [hdata] at hacc' hnone ⊢
    exact .answered (hisreq hc) (hu.trace.conclude rfl (by simp) hnone) (decisive_eq hacks rfl hacc') hj
  | refused hc hj =>
    rw [hdata] at hacc' hnone ⊢
    exact .refused (hisreq hc) (hu.trace.conclude rfl (by simp) hnone) (decisive_eq hacks rfl hacc') hj

theorem Entity.Orderly.holds_of_delivering {handover : Handover} (ho : e.Orderly)
    (ht : e.task? id = some (.sending (.delivering s handover))) :
    e.holds id (ownTransaction s.lease).value = true :=
  ho.holds (Entity.leaseOut?_eq ht) (ho.held ht)

/-- A session that goes on without a message of the other side. -/
theorem Underway.silent (hu : Underway config h e id m s payload start count)
    (hnone : acceptance? id ⟨e, move, [], e'⟩ = none)
    (hpending : e'.outgoing.pending s.lease = e.outgoing.pending s.lease) :
    Underway config (h ++ [⟨e, move, [], e'⟩]) e' id m s payload start count := by
  obtain ⟨acks, hacks, hacc⟩ := hu.waiting
  refine ⟨hu.message, hu.data, hu.trace.snoc rfl (by simp [hnone]), acks, hacks, ?_⟩
  rw [acceptances_snoc, hnone, Option.toList_none, List.append_nil, hacc, hpending]

theorem Stage.opened {lease : Lease} {outgoing : Table Message Unit} {data : Message}
    (hs : Stage config h e id m (.opening m)) (ho : e.Orderly)
    (hl : e.outgoing.lease? () = some (lease, outgoing))
    (hd : Message.carrying ⟨false, UInt8.ofNat lease.index⟩ m = .ok data) (ho' : e'.Orderly)
    (ht' : e'.task? id = some (.sending (.delivering ⟨m, lease, data⟩ (.transmitting 0))))
    (hout : e'.outgoing = outgoing) (hclock : e'.clock = e.clock) :
    Stage config (h ++ [⟨e, .run id, [.emitted id data], e'⟩]) e' id m
      (.delivering ⟨m, lease, data⟩ (.transmitting 0)) := by
  obtain ⟨payload, henc, rfl⟩ := carrying_eq_ok hd
  obtain ⟨-, hsend, hacc⟩ := hs
  have hleased := ho.outgoing.sound.leased_of_lease? hl
  refine ⟨payload, e.clock, ⟨rfl, rfl, ?_, [], by simp, ?_⟩, by simp [hclock]⟩
  · refine ⟨henc, rfl, Nat.le_refl _, Nat.le_add_right _ _, ?_, ?_,
      received_snoc (by simp [hacc]) (by simp [acceptance?])⟩
    · rw [sendings_snoc, hsend]
      simp [copies, Event.emittedBy?, ownTransaction]
    · rintro y hy ⟨p, hp⟩
      rcases List.mem_append.1 hy with hy | hy
      · -- nothing was sent before
        have hmem : (y.before.clock, .data (ownTransaction lease) p) ∈ sendings h id :=
          List.mem_flatMap.2 ⟨y, hy, List.mem_map.2 ⟨_, emitted_mem_filterMap hp, rfl⟩⟩
        rw [hsend] at hmem
        cases hmem
      · obtain rfl := List.mem_singleton.1 hy
        exact ho'.holds_of_delivering ht'
  · rw [acceptances_snoc, hacc, hout, hleased.pending, if_pos rfl]
    simp [acceptance?]

theorem Stage.repeated {repeated deadline : Nat}
    (hs : Stage config h e id m (.delivering s (.awaiting repeated deadline)))
    (hdue : deadline ≤ e.clock) (hmore : repeated < config.maxRetransmissions) (ho' : e'.Orderly)
    (ht' : e'.task? id = some (.sending (.delivering s (.transmitting (repeated + 1)))))
    (hout : e'.outgoing = e.outgoing) (hclock : e'.clock = e.clock)
    (hnone : acceptance? id ⟨e, .expire id, [.emitted id s.data], e'⟩ = none) :
    Stage config (h ++ [⟨e, .expire id, [.emitted id s.data], e'⟩]) e' id m
      (.delivering s (.transmitting (repeated + 1))) := by
  obtain ⟨payload, start, hu, hd, hle⟩ := hs
  have hnow : e.clock = start + (repeated + 1) * config.ackTime :=
    (Nat.le_antisymm hle hdue).trans hd
  obtain ⟨acks, hacks, hacc⟩ := hu.waiting
  refine ⟨payload, start, ⟨hu.message, hu.data, ?_, acks, hacks, ?_⟩, hclock.trans hnow⟩
  · exact hu.trace.repeat (by rw [hu.data]) hnow hmore (ho'.holds_of_delivering ht') hnone
  · rw [acceptances_snoc, hnone, Option.toList_none, List.append_nil, hacc, hout]

theorem Stage.gaveUp {repeated deadline : Nat} {lease : Lease}
    (hs : Stage config h e id m (.delivering s (.awaiting repeated deadline)))
    (hdue : deadline ≤ e.clock) (hmore : config.maxRetransmissions ≤ repeated)
    (hlease : lease = s.lease) (hclock : e'.clock = e.clock)
    (hnone : acceptance? id ⟨e, .expire id, [], e'⟩ = none) :
    Stage config (h ++ [⟨e, .expire id, [], e'⟩]) e' id m
      (.closing lease (.error (.control .networkFailure))) := by
  subst hlease
  obtain ⟨payload, start, hu, hd, hle⟩ := hs
  have hmax : repeated + 1 = 1 + config.maxRetransmissions := by
    have := hu.trace.le
    omega
  have hnow : e.clock = start + (1 + config.maxRetransmissions) * config.ackTime := by
    rw [← hmax]
    exact (Nat.le_antisymm hle hdue).trans hd
  have ht := hu.trace
  rw [hmax] at ht
  exact Verdict.gaveUp (ht.snoc rfl (by simp [hnone])) (hclock.trans hnow)

/-- What a message to send does itself agrees with what the history says of it. -/
theorem Stage.step {task' : Option Task} {outgoing incoming : Table Message Unit}
    {phase' : Sending} (hs : Stage config h e id m phase) (ho : e.Orderly)
    (hconfig : e.config = config)
    (ha : Entity.Act e id move (.sending phase) task' outgoing incoming events)
    (ht : e.task? id = some (.sending phase)) (he : e' = e.settle id task' outgoing incoming)
    (htime : punctual ⟨e, move, events, e'⟩ = true) (hphase : task' = some (.sending phase')) :
    Stage config (h ++ [⟨e, move, events, e'⟩]) e' id m phase' := by
  have hnone : acceptance? id ⟨e, move, events, e'⟩ = none :=
    Entity.acceptance?_self ha.actor ht (by rintro x ⟨⟩) id
  have ho' : e'.Orderly := he ▸ ho.act ht ha
  have ht' : e'.task? id = some (.sending phase') := by
    rw [he, Entity.task?_settle _ _ _ ht, if_pos rfl, hphase]
  have hout : e'.outgoing = outgoing := by rw [he, Entity.outgoing_settle]
  have hclock : e'.clock = e.clock := by rw [he, Entity.clock_settle]
  cases ha with
  | congested => cases hphase
  | opened hl hd =>
    cases hphase
    have hm := hs.1
    subst hm
    exact Stage.opened hs ho hl hd ho' ht' hout hclock
  | unwritable hl hd =>
    cases hphase
    obtain ⟨rfl, hsend, -⟩ := hs
    exact .unwritable ((sendings_snoc_of_nil rfl).trans hsend) (carrying_eq_error hd)
  | delivered htake hf =>
    cases hphase
    obtain ⟨payload, start, hu, -⟩ := hs
    exact hu.follow hf (by rintro ⟨⟩) (Table.pending_take? htake) (by rw [hout]) hnone
  | took htake hf =>
    cases hphase
    obtain ⟨hm, payload, start, count, hu⟩ := hs
    exact hu.follow hf (fun _ => hm) (Table.pending_take? htake) (by rw [hout]) hnone
  | lapsed =>
    cases hphase
    obtain ⟨hm, payload, start, count, hu⟩ := hs
    exact ⟨hm, payload, start, count, hu.silent hnone (by rw [hout])⟩
  | tookLate hret hf =>
    cases hphase
    obtain ⟨hm, payload, start, count, hu⟩ := hs
    rw [Table.retire_fst] at hret
    obtain ⟨rest, hpending⟩ := List.head?_eq_some_iff.1 hret
    refine hu.follow hf (fun _ => hm) hpending ?_ hnone
    rw [hout, Table.pending_retire, if_pos rfl, hpending, List.tail_cons]
  | tookNothing hret =>
    cases hphase
    obtain ⟨hm, payload, start, count, hu⟩ := hs
    exact .unanswered hm (hu.trace.snoc rfl (by simp [hnone]))
  | closed => cases hphase
  | transmitted =>
    cases hphase
    obtain ⟨payload, start, hu, hnow⟩ := hs
    refine ⟨payload, start, hu.silent hnone (by rw [hout]), ?_, ?_⟩
    · rw [hnow, hconfig, Nat.succ_mul, Nat.add_assoc]
    · rw [hclock]
      exact Nat.le_add_right _ _
  | untransmitted => cases htime
  | concluded =>
    cases hphase
    show Verdict config _ e'.clock id m _ _
    rw [hclock]
    exact Verdict.snoc hs rfl (by simp [hnone])
  | unconcluded => cases htime
  | repeated hd hp hmore =>
    cases hphase
    exact Stage.repeated hs hd (hconfig ▸ hmore) ho' ht' hout hclock hnone
  | gaveUp hd hp hmore =>
    cases hphase
    exact Stage.gaveUp hs hd (hconfig ▸ hmore) rfl hclock hnone
  | expired hd hp =>
    cases hphase
    obtain ⟨hm, payload, start, count, hu⟩ := hs
    exact ⟨hm, payload, start, count, hu.silent hnone (by rw [hout])⟩
  | aborted => cases hphase

end

end ShortMessage.Control
