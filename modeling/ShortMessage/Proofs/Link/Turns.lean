import ShortMessage.Proofs.Link.Stages

/-!
# What a step leaves behind

`Lines` holds of the two parties after every history: nothing has failed in their entities, and each
line is in one of its stages.  `Turn` is what one step has to say for itself, line by line; that the
rest stays as it was is the same for all steps (`Moved.own_frame`, `Moved.other_frame`).
-/

namespace ShortMessage.Link

open Control Transaction
open Control.Entity (outgoingLease? incomingLease?)

/-! ## The invariant -/

/-- The parties after the history `h`. -/
structure Lines (h : List Passage) (l : State) : Prop where
  steady : ∀ p, Steady (l p).entity
  prompt : ∀ p, Prompt (l p)
  range : ∀ p, ∀ item ∈ (l p).queue, item.transaction.value.toNat < transactionCount
  stage : ∀ p, ∀ n < transactionCount, Stage (memory h p) (l p) (l p.peer) n
  /-- A request that has no transaction yet is as it was handed in. -/
  opening : ∀ {p i m}, (l p).entity.task? i = some (.sending (.opening m)) →
    (memory h p).asked i = some m ∧ m.isRequest = true ∧ (memory h p).story i = [] ∧
      (memory h p).emitted i = []
  fresh : ∀ {p i}, (l p).entity.started ≤ i → input? Entity.started (steps h p) i = none ∧
    (memory h p).story i = [] ∧ (memory h p).emitted i = []
  /-- Requests come in on transactions of the other party. -/
  foreign : ∀ {p i t r}, (l p).entity.task? i = some (.receiving (.opening t r)) → t.flag = false

/-- A step of the party `p`. -/
structure Moved (l l' : State) (p : Party) (move : Move Input)
    (events : List (Event Control.Message Result)) (cause : Option TaskId)
    (inbound : List Parcel) : Prop where
  admits : (l p).admits? move = some (cause, inbound)
  rule : Entity.Rule (l p).entity move (l' p).entity events
  mover : l' p = (l p).advance move cause inbound (l' p).entity
  peer : l' p.peer = (l p.peer).await (parcels events)

/-- What a step of the party `p` after the history `h` has to say. -/
structure Turn (h : List Passage) (l l' : State) (p : Party) (move : Move Input)
    (events : List (Event Control.Message Result)) : Prop where
  ownLines : ∀ n < transactionCount,
    Stage (memory (h ++ [⟨l, (p, move), events, l'⟩]) p) (l' p) (l' p.peer) n
  otherLines : ∀ n < transactionCount,
    Stage (memory (h ++ [⟨l, (p, move), events, l'⟩]) p.peer) (l' p.peer) (l' p) n
  range : ∀ item ∈ (l' p).queue, item.transaction.value.toNat < transactionCount
  emitted : ∀ parcel ∈ parcels events,
    parcel.message.transaction.value.toNat < transactionCount

/-! ## Transactions by number -/

section

variable {n k : Nat}

theorem own_value (hn : n < transactionCount) : (own n).value.toNat = n :=
  UInt8.toNat_ofNat_of_lt' (Nat.lt_trans hn (by decide))

theorem other_value (hn : n < transactionCount) : (other n).value.toNat = n := own_value hn

theorem own_inj (hn : n < transactionCount) (hk : k < transactionCount) (h : own n = own k) :
    n = k := by
  rw [← own_value hn, h, own_value hk]

theorem other_inj (hn : n < transactionCount) (hk : k < transactionCount) (h : other n = other k) :
    n = k := by
  rw [← other_value hn, h, other_value hk]

theorem own_ne_other : own n ≠ other k := by
  intro h
  cases congrArg TransactionId.flag h

theorem eq_own {t : TransactionId} (hflag : t.flag = false) : t = own t.value.toNat := by
  cases t
  cases hflag
  simp [own]

theorem eq_other {t : TransactionId} (hflag : t.flag = true) : t = other t.value.toNat := by
  cases t
  cases hflag
  simp [other]

theorem reverse_eq {t : TransactionId} (hflag : t.flag = false) :
    t.reverse = other t.value.toNat := by
  cases t
  cases hflag
  simp [other, TransactionId.reverse]

end

/-! ## What a step does to the memories -/

variable {h : List Passage} {l l' : State} {p : Party} {move : Move Input}
  {events : List (Event Control.Message Result)} {cause : Option TaskId} {inbound : List Parcel}
  {id i j n : Nat} {task : Task} {task' : Option Task}
  {outgoing incoming : Table Control.Message Unit}

theorem step?_eq_moved (hs : step? l (p, move) = some (l', events)) :
    ∃ cause inbound, Moved l l' p move events cause inbound := by
  obtain ⟨cause, inbound, e, hadmits, hrule, hmover, hpeer⟩ := step?_eq_some hs
  obtain rfl : e = (l' p).entity := by rw [hmover]; rfl
  exact ⟨cause, inbound, hadmits, hrule, hmover, hpeer⟩

theorem story_mover :
    story (h ++ [⟨l, (p, move), events, l'⟩]) p i = story h p i :=
  story_snoc_of_none (if_neg (Party.peer_ne p).symm)

theorem entryIn?_mover : entryIn? p.peer i ⟨l, (p, move), events, l'⟩ = (actor? move).bind fun j =>
    if (l p).origin j = some i then happening (l p) j move events else none := by
  unfold entryIn?
  rw [if_pos (by rw [Party.peer_peer])]
  simp only [Party.peer_peer]

theorem steps_mover : steps (h ++ [⟨l, (p, move), events, l'⟩]) p =
    steps h p ++ [⟨(l p).entity, move, events, (l' p).entity⟩] := steps_snoc_of_eq rfl

theorem steps_peer : steps (h ++ [⟨l, (p, move), events, l'⟩]) p.peer = steps h p.peer :=
  steps_snoc_of_ne (Party.peer_ne p).symm

theorem asked_peer : (memory (h ++ [⟨l, (p, move), events, l'⟩]) p.peer).asked i =
    (memory h p.peer).asked i := by
  show message? (steps _ p.peer) i = _
  rw [steps_peer]
  rfl

theorem emitted_peer : (memory (h ++ [⟨l, (p, move), events, l'⟩]) p.peer).emitted i =
    (memory h p.peer).emitted i := by
  show emissions (steps _ p.peer) i = _
  rw [steps_peer]
  rfl

namespace Moved

variable (hm : Moved l l' p move events cause inbound)

include hm

theorem asked_of_ne (hne : (l p).entity.started ≠ i) :
    message? (steps (h ++ [⟨l, (p, move), events, l'⟩]) p) i = message? (steps h p) i := by
  rw [steps_mover]
  unfold message?
  rcases hm.rule.input?_eq (steps h p) i with ⟨_, _, hid, _⟩ | heq
  · exact absurd hid hne
  · rw [heq]

/-- What a request asks for stays known. -/
theorem asked_of_some {q : Party} {m : Relay.Message} (hasked : message? (steps h q) i = some m) :
    message? (steps (h ++ [⟨l, (p, move), events, l'⟩]) q) i = some m := by
  rcases Party.eq_or p q with rfl | rfl
  · rw [steps_mover]
    exact message?_snoc_of_some hasked
  · rw [steps_peer]
    exact hasked

theorem emitted_of_ne (hne : actor? move ≠ some i) :
    emissions (steps (h ++ [⟨l, (p, move), events, l'⟩]) p) i = emissions (steps h p) i := by
  rw [steps_mover, emissions_snoc, hm.rule.emits_nothing hne, List.append_nil]

/-- What a party remembers of a task that does not take part in its step. -/
theorem agree_mover (hne : actor? move ≠ some i) (hlt : i < (l p).entity.started) :
    Agree (memory h p) (memory (h ++ [⟨l, (p, move), events, l'⟩]) p) i :=
  ⟨hm.asked_of_ne (Nat.ne_of_gt hlt), story_mover, hm.emitted_of_ne hne⟩

theorem admitted (hactor : actor? move = some id) :
    inbound = (l p).inbound ∧ cause = (l p).origin id := by
  have hadmits := hm.admits
  unfold Side.admits? at hadmits
  split at hadmits
  all_goals first
    | (cases hactor; done)
    | (cases hactor; cases hadmits; exact ⟨rfl, rfl⟩)
    | cases hadmits

omit hm in
/-- What the other party remembers of a task to whose request nothing happens. -/
theorem agree_peer (hnone : entryIn? p.peer i ⟨l, (p, move), events, l'⟩ = none) :
    Agree (memory h p.peer) (memory (h ++ [⟨l, (p, move), events, l'⟩]) p.peer) i :=
  ⟨asked_peer, story_snoc_of_none hnone, emitted_peer⟩

theorem calm : calm move = true := calm_of_admits hm.admits

theorem entity_peer : (l' p.peer).entity = (l p.peer).entity := by
  rw [hm.peer]
  rfl

theorem origin_mover (ho : (l p).entity.Orderly) {task : Task}
    (ht : (l p).entity.task? j = some task) : (l' p).origin j = (l p).origin j := by
  rw [hm.mover]
  exact Side.origin_advance ho ht

theorem origin_peer : (l' p.peer).origin j = (l p.peer).origin j := by
  rw [hm.peer]
  rfl

/-- Nothing is put on the way to the other party. -/
theorem peer_eq (hnil : parcels events = []) : l' p.peer = l p.peer := by
  rw [hm.peer, hnil, Side.await, List.append_nil]

/-- What is on the way to the other party, and on which transaction more was put there. -/
theorem lane_peer (t : TransactionId) : (l' p.peer).lane t = (l p.peer).lane t ++
    ((parcels events).map Item.ofParcel).filter (·.transaction = t) := by
  rw [hm.peer]
  exact Side.lane_await _ _ _

theorem lane_peer_of_ne {t : TransactionId}
    (hne : ∀ parcel ∈ parcels events, parcel.message.transaction ≠ t) :
    (l' p.peer).lane t = (l p.peer).lane t := by
  rw [hm.lane_peer, List.filter_eq_nil_iff.2, List.append_nil]
  intro item hitem
  obtain ⟨parcel, hparcel, rfl⟩ := List.mem_map.1 hitem
  exact fun ht => hne parcel hparcel (of_decide_eq_true ht)

theorem lane_peer_of_eq {t : TransactionId} {m : Control.Message}
    (hev : events = [.emitted id m]) (ht : m.transaction = t) :
    (l' p.peer).lane t = (l p.peer).lane t ++ [.message id m] := by
  rw [hm.lane_peer, hev]
  simp [parcels, Item.ofParcel, Item.transaction, ht]

theorem down_peer_of_eq {m : Control.Message} (hev : events = [.emitted id m])
    (ht : m.transaction = other n) : (l' p.peer).down n = (l p.peer).down n ++ [m] := by
  unfold Side.down
  rw [hm.lane_peer_of_eq hev ht, List.filterMap_append]
  rfl

end Moved

/-! ## What is looked at -/

theorem Lines.other_stage (hl : Lines h l) (hn : n < transactionCount) :
    Stage (memory h p.peer) (l p.peer) (l p) n := by
  have := hl.stage p.peer n hn
  rwa [Party.peer_peer] at this

/-- The rest of what is on the way on a transaction. -/
def behind (s : Side) (t : TransactionId) : List Item :=
  (s.inbound.map Item.ofParcel).filter (·.transaction = t)

/-- A message that is being looked at is the oldest on its transaction. -/
theorem Lines.arrived (hl : Lines h l) {m : Control.Message}
    (ht : (l p).entity.task? j = some (.receiving (.arrived m))) {t : TransactionId}
    (htr : m.transaction = t) : ∃ sender, (l p).origin j = some sender ∧ (l p).latest = some j ∧
      m.transaction.value.toNat < transactionCount ∧
      (l p).queue = .message sender m :: (l p).inbound.map Item.ofParcel ∧
      (l p).lane t = .message sender m :: behind (l p) t := by
  obtain ⟨sender, hsender, hhead⟩ := Side.head?_of_arrived (hl.prompt p) ht
  have hqueue := Side.queue_of_head? hhead
  refine ⟨sender, hsender, (hl.prompt p ht rfl).1, ?_, hqueue, ?_⟩
  · refine hl.range p (.message sender m) ?_
    rw [hqueue]
    exact List.mem_cons_self
  · exact (Side.lane_of_queue hqueue).trans (if_pos htr)

theorem Lines.read (hl : Lines h l) {t : TransactionId} {r : Relay.Message}
    (ht : (l p).entity.task? j = some (.receiving (.opening t r))) :
    ∃ sender, (l p).origin j = some sender ∧ (l p).latest = some j ∧ t.flag = false ∧
      t.value.toNat < transactionCount ∧
      (l p).queue = .request sender t r :: (l p).inbound.map Item.ofParcel ∧
      (l p).lane (own t.value.toNat) =
        .request sender t r :: behind (l p) (own t.value.toNat) := by
  obtain ⟨sender, hsender, hhead⟩ := Side.head?_of_opening (hl.prompt p) ht
  have hqueue := Side.queue_of_head? hhead
  have hflag := hl.foreign ht
  refine ⟨sender, hsender, (hl.prompt p ht rfl).1, hflag, ?_, hqueue, ?_⟩
  · refine hl.range p (.request sender t r) ?_
    rw [hqueue]
    exact List.mem_cons_self
  · exact (Side.lane_of_queue hqueue).trans (if_pos (eq_own hflag))

/-! ## Lines that a step is not about -/

theorem keepsClient_refl {e e' : Entity} (he : e' = e) : KeepsClient e e' n := by
  rw [he]
  exact ⟨fun hc => hc, fun hv => hv⟩

theorem keepsServer_refl {e e' : Entity} (he : e' = e) : KeepsServer e e' n := by
  rw [he]
  exact ⟨fun hb => hb, fun hv => hv⟩

section

variable (hl : Lines h l) (hm : Moved l l' p move events cause inbound)

include hl hm

/-- A line of the party's own that its step is not about. -/
theorem Moved.own_frame (hn : n < transactionCount)
    (hkeep : KeepsClient (l p).entity (l' p).entity n)
    (hactor : ∀ {i phase mail}, Client (l p).entity n i phase mail → actor? move ≠ some i)
    (hlane : (l' p).lane (other n) = (l p).lane (other n))
    (hemit : ∀ parcel ∈ parcels events, parcel.message.transaction ≠ own n) :
    Stage (memory (h ++ [⟨l, (p, move), events, l'⟩]) p) (l' p) (l' p.peer) n :=
  (hl.stage p n hn).congr hkeep hlane
    (fun hc => hm.agree_mover (hactor hc) ((hl.steady p).orderly.lt_started hc.1))
    (keepsServer_refl hm.entity_peer) (hm.lane_peer_of_ne hemit) fun _ => hm.origin_peer

/-- A line of the other party that the step is not about. -/
theorem Moved.other_frame (hn : n < transactionCount)
    (hkeep : KeepsServer (l p).entity (l' p).entity n)
    (hentry : ∀ {i phase mail}, Client (l p.peer).entity n i phase mail →
      entryIn? p.peer i ⟨l, (p, move), events, l'⟩ = none)
    (hlane : (l' p).lane (own n) = (l p).lane (own n))
    (hemit : ∀ parcel ∈ parcels events, parcel.message.transaction ≠ other n) :
    Stage (memory (h ++ [⟨l, (p, move), events, l'⟩]) p.peer) (l' p.peer) (l' p) n := by
  have hst := hl.stage p.peer n hn
  rw [Party.peer_peer] at hst
  exact hst.congr (keepsClient_refl hm.entity_peer) (hm.lane_peer_of_ne hemit)
    (fun hc => agree_peer (hentry hc)) hkeep hlane
    fun ht => hm.origin_mover (hl.steady p).orderly ht

end

/-- A line goes on at one party, and the other one hears nothing of it. -/
theorem Moved.silent (hm : Moved l l' p move events cause inbound) (hnil : parcels events = [])
    (hst : Stage (memory h p.peer) (l p.peer) (l' p) n)
    (hentry : ∀ i, entryIn? p.peer i ⟨l, (p, move), events, l'⟩ = none) :
    Stage (memory (h ++ [⟨l, (p, move), events, l'⟩]) p.peer) (l' p.peer) (l' p) n := by
  rw [hm.peer_eq hnil]
  exact hst.congr (keepsClient_refl rfl) rfl (fun _ => agree_peer (hentry _)) (keepsServer_refl rfl)
    rfl fun _ => rfl

/-! ## What can happen to a request -/

section

variable {entry : Entry}

/-- What happens to a request is done by the task that serves it or looks at it. -/
theorem Moved.entry_cases (hm : Moved l l' p move events cause inbound)
    (he : entryIn? p.peer i ⟨l, (p, move), events, l'⟩ = some entry) :
    ∃ j, actor? move = some j ∧ (l p).origin j = some i ∧
      ((∃ service call, (l p).entity.task? j = some (.serving (.accepted service)) ∧
          Service.call? service.request = some call ∧ events = [.called j call] ∧
          entry = .called j call) ∨
        (∃ service outcome now, (l p).entity.task? j = some (.serving (.handling service)) ∧
          move = .answered j outcome now ∧ entry = .decided j outcome now) ∨
        ∃ t payload, (l p).entity.task? j = some (.receiving (.arrived (.data t payload))) ∧
          t.flag = false ∧ (l p).entity.incoming.isHeld t.value.toNat = true ∧ move = .run j ∧
          entry = .passedOver j) := by
  rw [entryIn?_mover] at he
  obtain ⟨j, hj, he⟩ := Option.bind_eq_some_iff.1 he
  split at he
  case isFalse => cases he
  rename_i horigin
  refine ⟨j, hj, horigin, ?_⟩
  have hrule := hm.rule
  generalize (l' p).entity = e at hrule
  cases hrule with
  | start input | elapsed duration => cases hj
  | handedOver ht => cases he
  | act ht ha =>
    rw [ha.actor] at hj
    cases hj
    cases ha with
    | called hcall =>
      cases he
      exact .inl ⟨_, _, ht, hcall, rfl, rfl⟩
    | replied | unreplied =>
      cases he
      exact .inr (.inl ⟨_, _, _, ht, rfl, rfl⟩)
    | passedOver hflag hheld =>
      simp only [happening, ht, hflag, hheld, true_and, if_true] at he
      cases he
      exact .inr (.inr ⟨_, _, ht, hflag, hheld, rfl, rfl⟩)
    | delivered _ hf | took _ hf | tookLate _ hf =>
      cases hf <;> simp [happening, Entity.saying, ht] at he
    | @posted m _ hflag | @postedIncoming m _ hflag hdata | @stray m _ _ hdata =>
      cases m <;> simp_all [happening, Control.Message.transaction]
    | _ => simp_all [happening]

end

/-- Can something happen to a request in a step of the task? -/
def telling : Task → Bool
  | .serving (.accepted _) | .serving (.handling _) | .receiving (.arrived (.data _ _)) => true
  | _ => false

theorem Moved.entry_eq_none (hm : Moved l l' p move events cause inbound)
    (ht : (l p).entity.task? id = some task) (hactor : actor? move = some id)
    (htask : telling task = false) (i : TaskId) :
    entryIn? p.peer i ⟨l, (p, move), events, l'⟩ = none := by
  cases he : entryIn? p.peer i ⟨l, (p, move), events, l'⟩ with
  | none => rfl
  | some entry =>
    obtain ⟨j, hj, -, hcases⟩ := hm.entry_cases he
    rw [hactor] at hj
    cases hj
    rcases hcases with ⟨_, _, ht', -⟩ | ⟨_, _, _, ht', -⟩ | ⟨_, _, ht', -⟩
    all_goals
      rw [ht] at ht'
      cases ht'
      cases htask

/-! ## The line of a step -/

/-- The transaction of its own party that a task is about. -/
def ownLine? : Task → Option Nat
  | .receiving (.arrived m) => if m.transaction.flag then some m.transaction.value.toNat else none
  | task => (outgoingLease? task).map (·.index)

/-- The transaction of the other party that a task is about. -/
def otherLine? : Task → Option Nat
  | .receiving (.arrived m) => if m.transaction.flag then none else some m.transaction.value.toNat
  | .receiving (.opening t _) => if t.flag then none else some t.value.toNat
  | task => (incomingLease? task).map (·.index)

theorem ownLine?_of_lease {lease : Lease} (h : outgoingLease? task = some lease) :
    ownLine? task = some lease.index := by
  unfold ownLine?
  split
  · cases h
  · rw [h]
    rfl

theorem otherLine?_of_lease {lease : Lease} (h : incomingLease? task = some lease) :
    otherLine? task = some lease.index := by
  unfold otherLine?
  split
  · cases h
  · cases h
  · rw [h]
    rfl

theorem otherLine?_arrived {m : Control.Message} (hflag : m.transaction.flag = false) :
    otherLine? (.receiving (.arrived m)) = some m.transaction.value.toNat :=
  if_neg (by simp [hflag])

theorem ownLine?_arrived {m : Control.Message} (hflag : m.transaction.flag = false) :
    ownLine? (.receiving (.arrived m)) = none :=
  if_neg (by simp [hflag])

theorem looking_of_incoming {lease : Lease} (h : incomingLease? task = some lease) :
    looking task = false := by
  unfold looking
  split <;> first | rfl | cases h

theorem ownLine?_of_incoming {lease : Lease} (h : incomingLease? task = some lease) :
    ownLine? task = none := by
  unfold incomingLease? at h
  split at h <;> first | rfl | cases h

section

variable (hl : Lines h l) (hm : Moved l l' p move events cause inbound)

include hl hm

/-- Whatever happens to a request happens on its line, and the request is still open then. -/
theorem Moved.entry_client {entry : Entry}
    (he : entryIn? p.peer i ⟨l, (p, move), events, l'⟩ = some entry) :
    ∃ n phase mail j task, Client (l p.peer).entity n i phase mail ∧ actor? move = some j ∧
      (l p).entity.task? j = some task ∧ otherLine? task = some n ∧ n < transactionCount := by
  obtain ⟨j, hj, horigin, hcases⟩ := hm.entry_cases he
  rcases hcases with ⟨service, call, ht, -⟩ | ⟨service, outcome, now, ht, -⟩ |
    ⟨t, payload, ht, hflag, hheld, -⟩
  · obtain ⟨hn, hb⟩ := (hl.steady p).server_of_lease ht rfl
    obtain ⟨i', sess, ho, -, -, -, hserves⟩ := (hl.other_stage hn).accepted (hl.steady p) hb
    obtain ⟨phase, mail, hclient, -⟩ := ho.client
    rw [hserves.origin] at horigin
    cases horigin
    exact ⟨_, _, _, j, _, hclient, hj, ht, rfl, hn⟩
  · obtain ⟨hn, hb⟩ := (hl.steady p).server_of_lease ht rfl
    obtain ⟨i', sess, _, ho, -, -, -, hserves, -⟩ := (hl.other_stage hn).handling (hl.steady p) hb
    obtain ⟨phase, mail, hclient, -⟩ := ho.client
    rw [hserves.origin] at horigin
    cases horigin
    exact ⟨_, _, _, j, _, hclient, hj, ht, rfl, hn⟩
  · obtain ⟨sender, hsender, -, hn, -, hlane⟩ := hl.arrived ht (eq_own hflag)
    rw [hsender] at horigin
    cases horigin
    rcases (hl.other_stage hn).lane_cases hlane with ⟨k, _, _, _, _, heq, -⟩ |
      ⟨i', sess, heq, -, -, ho, -⟩ | ⟨_, _, _, heq, -⟩
    · cases heq
    · obtain ⟨rfl, -⟩ := Item.message.inj heq
      obtain ⟨phase, mail, hclient, -⟩ := ho.client
      refine ⟨_, _, _, j, _, hclient, hj, ht, ?_, hn⟩
      simp only [otherLine?, Control.Message.transaction, hflag]
      rfl
    · cases heq

variable (he : (l' p).entity = (l p).entity.settle id task' outgoing incoming)
  (ht : (l p).entity.task? id = some task)
  (ha : Entity.Act (l p).entity id move task task' outgoing incoming events)

include he ht ha

theorem Moved.act_own (hn : n < transactionCount) (hbefore : ownLine? task ≠ some n)
    (hafter : task'.bind ownLine? ≠ some n) (hlane : (l' p).lane (other n) = (l p).lane (other n))
    (hemit : ∀ parcel ∈ parcels events, parcel.message.transaction ≠ own n) :
    Stage (memory (h ++ [⟨l, (p, move), events, l'⟩]) p) (l' p) (l' p.peer) n := by
  have hout : ∀ {lease}, outgoingLease? task = some lease → lease.index ≠ n := by
    rintro lease hlease rfl
    exact hbefore (ownLine?_of_lease hlease)
  refine hm.own_frame hl hn ?_ ?_ hlane hemit
  · rw [he]
    refine (hl.steady p).client_of_ne ht ha hout ?_ ?_
    · rintro lease hlease rfl
      obtain ⟨x, rfl, hx⟩ := Option.bind_eq_some_iff.1 hlease
      exact hafter (ownLine?_of_lease hx)
    · rintro m rfl hflag rfl
      exact hbefore (if_pos hflag)
  · intro i phase mail hc hactor
    rw [ha.actor] at hactor
    cases hactor
    obtain ⟨htask, lease, hlease, hindex, -⟩ := hc
    rw [Entity.leaseOut?_eq ht] at hlease
    exact hout hlease hindex

theorem Moved.act_other (hn : n < transactionCount) (hbefore : otherLine? task ≠ some n)
    (hafter : task'.bind otherLine? ≠ some n) (hlane : (l' p).lane (own n) = (l p).lane (own n))
    (hemit : ∀ parcel ∈ parcels events, parcel.message.transaction ≠ other n) :
    Stage (memory (h ++ [⟨l, (p, move), events, l'⟩]) p.peer) (l' p.peer) (l' p) n := by
  refine hm.other_frame hl hn ?_ ?_ hlane hemit
  · rw [he]
    refine (hl.steady p).server_of_ne ht ha ?_ ?_ ?_
    · rintro lease hlease rfl
      exact hbefore (otherLine?_of_lease hlease)
    · rintro lease hlease rfl
      obtain ⟨x, rfl, hx⟩ := Option.bind_eq_some_iff.1 hlease
      exact hafter (otherLine?_of_lease hx)
    · rintro m rfl hflag rfl
      exact hbefore (if_neg (by simp [hflag]))
  · intro i phase mail hc
    cases hentry : entryIn? p.peer i ⟨l, (p, move), events, l'⟩ with
    | none => rfl
    | some entry =>
      obtain ⟨k, _, _, j, _, hc', hj, ht', hline, -⟩ := hm.entry_client hl hentry
      rw [ha.actor] at hj
      cases hj
      rw [ht] at ht'
      cases ht'
      obtain ⟨-, lease, hlease, rfl, -⟩ := hc
      obtain ⟨-, lease', hlease', rfl, -⟩ := hc'
      rw [hlease] at hlease'
      cases hlease'
      exact absurd hline hbefore

/-- A task that looks at nothing leaves everything where it is. -/
theorem Moved.queue_of_act (hlook : looking task = false) : (l' p).queue = (l p).queue := by
  have hunread : ∀ octets, task ≠ .receiving (.octets octets) := by
    rintro octets rfl
    exact (hl.steady p).unread ht
  obtain ⟨rfl, -⟩ := hm.admitted ha.actor
  rw [hm.mover]
  refine Side.queue_of_not_looking (hl.steady p).orderly ?_ fun j x hx => ?_
  · rintro m rfl
    cases ha.actor
  · rw [he, Entity.task?_settle _ _ _ ht]
    split
    · rename_i hj
      rw [hj, ht]
      constructor
      · intro h
        rw [Act.looking ha hunread h hx] at hlook
        cases hlook
      · intro h
        cases h
        rw [hx] at hlook
        cases hlook
    · exact Iff.rfl

omit hl in
/-- A task that has looked at a message ends, or goes on to something else. -/
theorem Moved.queue_of_looked (hlatest : (l p).latest = some id)
    (hlook : ∀ x, task' = some x → looking x = false) :
    (l' p).queue = (l p).inbound.map Item.ofParcel := by
  obtain ⟨rfl, -⟩ := hm.admitted ha.actor
  rw [hm.mover]
  refine Side.queue_of_looked ?_ hlatest fun x hx => ?_
  · rintro m rfl
    cases ha.actor
  · rw [he, Entity.task?_settle _ _ _ ht, if_pos rfl] at hx
    exact hlook x hx

/-- A task that has read a request looks at that. -/
theorem Moved.queue_of_read (hlatest : (l p).latest = some id) {sender : TaskId}
    (horigin : (l p).origin id = some sender) {t : TransactionId} {r : Relay.Message}
    (hread : task' = some (.receiving (.opening t r))) :
    (l' p).queue = .request sender t r :: (l p).inbound.map Item.ofParcel := by
  have horigin' := (hm.origin_mover (hl.steady p).orderly ht).trans horigin
  obtain ⟨rfl, -⟩ := hm.admitted ha.actor
  rw [hm.mover] at horigin' ⊢
  refine Side.queue_of_opening ?_ hlatest horigin' ?_
  · rintro m rfl
    cases ha.actor
  · rw [he, Entity.task?_settle _ _ _ ht, if_pos rfl, hread]

/-- A step about a line of the party's own. -/
theorem Turn.of_own (hn : n < transactionCount)
    (hown : ∀ {k}, ownLine? task = some k ∨ task'.bind ownLine? = some k → k = n)
    (hother : otherLine? task = none ∧ task'.bind otherLine? = none)
    (hlane : ∀ t, t ≠ other n → (l' p).lane t = (l p).lane t)
    (hrange : ∀ item ∈ (l' p).queue, item ∈ (l p).queue)
    (hemit : ∀ parcel ∈ parcels events, parcel.message.transaction = own n)
    (hst : Stage (memory (h ++ [⟨l, (p, move), events, l'⟩]) p) (l' p) (l' p.peer) n) :
    Turn h l l' p move events where
  ownLines k hk := by
    by_cases hkn : k = n
    · rw [hkn]
      exact hst
    · refine hm.act_own hl he ht ha hk (fun h => hkn (hown (.inl h))) (fun h => hkn (hown (.inr h)))
        (hlane _ fun h => hkn (other_inj hk hn h)) fun parcel hp h => ?_
      rw [hemit parcel hp] at h
      exact hkn (own_inj hn hk h).symm
  otherLines k hk := by
    refine hm.act_other hl he ht ha hk ?_ ?_ (hlane _ own_ne_other) fun parcel hp h => ?_
    · rw [hother.1]
      rintro ⟨⟩
    · rw [hother.2]
      rintro ⟨⟩
    · rw [hemit parcel hp] at h
      exact own_ne_other h
  range item hitem := hl.range p item (hrange item hitem)
  emitted parcel hp := by
    rw [hemit parcel hp, own_value hn]
    exact hn

/-- A step about a line of the other party. -/
theorem Turn.of_other (hn : n < transactionCount)
    (hother : ∀ {k}, otherLine? task = some k ∨ task'.bind otherLine? = some k → k = n)
    (hown : ownLine? task = none ∧ task'.bind ownLine? = none)
    (hlane : ∀ t, t ≠ own n → (l' p).lane t = (l p).lane t)
    (hrange : ∀ item ∈ (l' p).queue, ∃ item' ∈ (l p).queue, item'.transaction = item.transaction)
    (hemit : ∀ parcel ∈ parcels events, parcel.message.transaction = other n)
    (hst : Stage (memory (h ++ [⟨l, (p, move), events, l'⟩]) p.peer) (l' p.peer) (l' p) n) :
    Turn h l l' p move events where
  ownLines k hk := by
    refine hm.act_own hl he ht ha hk ?_ ?_ (hlane _ (Ne.symm own_ne_other)) fun parcel hp h => ?_
    · rw [hown.1]
      rintro ⟨⟩
    · rw [hown.2]
      rintro ⟨⟩
    · rw [hemit parcel hp] at h
      exact own_ne_other h.symm
  otherLines k hk := by
    by_cases hkn : k = n
    · rw [hkn]
      exact hst
    · refine hm.act_other hl he ht ha hk (fun h => hkn (hother (.inl h)))
        (fun h => hkn (hother (.inr h))) (hlane _ fun h => hkn (own_inj hk hn h)) fun parcel hp h => ?_
      rw [hemit parcel hp] at h
      exact hkn (other_inj hn hk h).symm
  range item hitem := by
    obtain ⟨item', hitem', htr⟩ := hrange item hitem
    rw [← htr]
    exact hl.range p item' hitem'
  emitted parcel hp := by
    rw [hemit parcel hp, other_value hn]
    exact hn

/-- A step of a task that serves on the transaction of its lease. -/
theorem Turn.of_server {lease : Lease} (hlease : incomingLease? task = some lease)
    (hafter : ∀ x, task' = some x → incomingLease? x = some lease)
    (hemit : ∀ parcel ∈ parcels events, parcel.message.transaction = other lease.index)
    (hst : (l' p).lane (own lease.index) = (l p).lane (own lease.index) →
      Stage (memory (h ++ [⟨l, (p, move), events, l'⟩]) p.peer) (l' p.peer) (l' p) lease.index) :
    Turn h l l' p move events := by
  have hqueue := hm.queue_of_act hl he ht ha (looking_of_incoming hlease)
  have hn := ((hl.steady p).server_of_lease ht hlease).1
  refine .of_other hl hm he ht ha hn ?_ ⟨ownLine?_of_incoming hlease, ?_⟩
    (fun t _ => Side.lane_congr hqueue t) (fun item hitem => ⟨item, hqueue ▸ hitem, rfl⟩) hemit
    (hst (Side.lane_congr hqueue _))
  · rintro k (hk | hk)
    · rw [otherLine?_of_lease hlease] at hk
      exact (Option.some.inj hk).symm
    · obtain ⟨x, hx, hk⟩ := Option.bind_eq_some_iff.1 hk
      rw [otherLine?_of_lease (hafter x hx)] at hk
      exact (Option.some.inj hk).symm
  · cases hx : task' with
    | none => rfl
    | some x => exact ownLine?_of_incoming (hafter x hx)

/-- A step about no line. -/
theorem Turn.of_none (hown : ownLine? task = none ∧ task'.bind ownLine? = none)
    (hother : otherLine? task = none ∧ task'.bind otherLine? = none)
    (hqueue : (l' p).queue = (l p).queue) (hemit : parcels events = []) :
    Turn h l l' p move events where
  ownLines k hk := hm.act_own hl he ht ha hk (by simp [hown.1]) (by simp [hown.2])
    (Side.lane_congr hqueue _) (by simp [hemit])
  otherLines k hk := hm.act_other hl he ht ha hk (by simp [hother.1]) (by simp [hother.2])
    (Side.lane_congr hqueue _) (by simp [hemit])
  range item hitem := hl.range p item (hqueue ▸ hitem)
  emitted parcel hp := by simp [hemit] at hp

end

end ShortMessage.Link
