import ShortMessage.Proofs.Link.Clients
import ShortMessage.Proofs.Link.Servers

/-!
# The steps of the two parties

Every step of a party keeps all lines in their stages (`Lines.turn`).  Besides those of the tasks that
send and of the tasks that serve these are the steps of the tasks that look at messages, and those of
no task.
-/

namespace ShortMessage.Link

open Control Transaction
open Control.Entity (outgoingLease? incomingLease?)

variable {h : List Passage} {l l' : State} {p : Party} {move : Move Input}
  {events : List (Event Control.Message Result)} {cause : Option TaskId} {inbound : List Parcel}
  {id i j n : Nat} {task' : Option Task} {outgoing incoming : Table Control.Message Unit}

/-! ## Tasks that look at messages -/

section

variable {m : Control.Message} (hl : Lines h l)

include hl

theorem Lines.down_arrived (ht : (l p).entity.task? id = some (.receiving (.arrived m)))
    (hflag : m.transaction.flag = true) : (l p).down m.transaction.value.toNat =
      m :: (behind (l p) (other m.transaction.value.toNat)).filterMap Item.said? := by
  obtain ⟨sender, -, -, -, -, hlane⟩ := hl.arrived ht (eq_other hflag)
  unfold Side.down
  rw [hlane]
  rfl

/-- What comes back on a transaction of the party's own waits for the task that has it. -/
theorem Turn.posted
    (hm : Moved l l' p (.run id) [.returned id (.received (.ok ()))] cause inbound)
    (he : (l' p).entity = (l p).entity.settle id none outgoing (l p).entity.incoming)
    (ht : (l p).entity.task? id = some (.receiving (.arrived m)))
    (hflag : m.transaction.flag = true)
    (hpost : (l p).entity.outgoing.post m.transaction.value.toNat m = .ok outgoing) :
    Turn h l l' p (.run id) [.returned id (.received (.ok ()))] := by
  obtain ⟨sender, -, hlatest, hn, hqueue, -⟩ := hl.arrived ht (eq_other hflag)
  have hact : Entity.Act (l p).entity id (.run id) (.receiving (.arrived m)) none outgoing
      (l p).entity.incoming [.returned id (.received (.ok ()))] := .posted hflag hpost
  have hqueue' := hm.queue_of_looked he ht hact hlatest (by rintro _ ⟨⟩)
  obtain ⟨hsame, -⟩ := Side.lanes_of_looked hqueue (.inl hqueue')
  obtain ⟨i, phase, mail, hc, -, hgo⟩ := (hl.stage p _ hn).down_cases (hl.down_arrived ht hflag)
  have hc' := (hl.steady p).client_post he ht hpost hc
  refine .of_own hl hm he ht hact hn ?_ ⟨if_pos hflag, rfl⟩
    (fun t hne => hsame t fun heq => hne (heq.trans (eq_other hflag))) ?_ (by simp [parcels]) ?_
  · rintro k (hk | ⟨⟨⟩⟩)
    rw [show ownLine? (.receiving (.arrived m)) = _ from if_pos hflag] at hk
    exact (Option.some.inj hk).symm
  · intro item hitem
    rw [hqueue'] at hitem
    rw [hqueue]
    exact List.mem_cons_of_mem _ hitem
  · rw [hm.peer_eq rfl]
    refine hgo hc' ?_ (hm.asked_of_ne (Nat.ne_of_gt ((hl.steady p).orderly.lt_started hc.1)))
      story_mover
    unfold Side.down Side.lane
    rw [hqueue']
    rfl

/-- There is room for everything that comes in on a transaction. -/
theorem Lines.post_eq_ok (ht : (l p).entity.task? id = some (.receiving (.arrived m)))
    (hdata : m.transaction.flag = false → ∀ t payload, m ≠ .data t payload) :
    ∃ table, (if m.transaction.flag then (l p).entity.outgoing else (l p).entity.incoming).post
      m.transaction.value.toNat m = .ok table := by
  cases hflag : m.transaction.flag with
  | true =>
    obtain ⟨sender, -, -, hn, -⟩ := hl.arrived ht (eq_other hflag)
    obtain ⟨i, phase, mail, hc, hroom, -⟩ :=
      (hl.stage p _ hn).down_cases (hl.down_arrived ht hflag)
    exact (hl.steady p).outgoing.post_eq_ok hc.2 hroom m
  | false =>
    obtain ⟨sender, -, -, hn, -, hlane⟩ := hl.arrived ht (eq_own hflag)
    rcases (hl.other_stage hn).lane_cases hlane with ⟨_, _, _, _, _, -, hb, -⟩ |
      ⟨_, sess, heq, -, -, ho, -⟩ | ⟨_, _, _, heq, -⟩
    · exact (hl.steady p).incoming.post_eq_ok hb.2 (by decide) m
    · obtain ⟨_, -, hsess⟩ := ho.data
      exact absurd ((Item.message.inj heq).2.trans hsess) (hdata hflag _ _)
    · cases heq

/-- The acknowledgement of an answer waits for the task that serves. -/
theorem Turn.postedIncoming
    (hm : Moved l l' p (.run id) [.returned id (.received (.ok ()))] cause inbound)
    (he : (l' p).entity = (l p).entity.settle id none (l p).entity.outgoing incoming)
    (ht : (l p).entity.task? id = some (.receiving (.arrived m)))
    (hflag : m.transaction.flag = false) (hdata : ∀ t payload, m ≠ .data t payload)
    (hpost : (l p).entity.incoming.post m.transaction.value.toNat m = .ok incoming) :
    Turn h l l' p (.run id) [.returned id (.received (.ok ()))] := by
  obtain ⟨sender, -, hlatest, hn, hqueue, hlane⟩ := hl.arrived ht (eq_own hflag)
  have hact : Entity.Act (l p).entity id (.run id) (.receiving (.arrived m)) none
      (l p).entity.outgoing incoming [.returned id (.received (.ok ()))] :=
    .postedIncoming hflag hdata hpost
  have hqueue' := hm.queue_of_looked he ht hact hlatest (by rintro _ ⟨⟩)
  obtain ⟨hsame, hmem⟩ := Side.lanes_of_looked hqueue (.inl hqueue')
  have htelling : telling (.receiving (.arrived m)) = false := by
    cases m with
    | data t payload => exact absurd rfl (hdata t payload)
    | _ => rfl
  refine .of_other hl hm he ht hact hn ?_ ⟨ownLine?_arrived hflag, rfl⟩
    (fun t hne => hsame t fun heq => hne (heq.trans (eq_own hflag))) hmem (by simp [parcels]) ?_
  · rintro k (hk | ⟨⟨⟩⟩)
    rw [otherLine?_arrived hflag] at hk
    exact (Option.some.inj hk).symm
  · rcases (hl.other_stage hn).lane_cases hlane with ⟨k, j, lease, data, handover, heq, hb, htr⟩ |
      ⟨_, sess, heq, -, -, ho, -⟩ | ⟨_, _, _, heq, -⟩
    · have hb' := (hl.steady p).server_post he ht hpost hb
      refine hm.silent rfl (.trailing (.acknowledged hb') ?_ (htr.front_congr ?_))
        (hm.entry_eq_none ht rfl htelling)
      · unfold Side.lane
        rw [hqueue']
        rfl
      · rintro ⟨⟩
    · obtain ⟨_, -, hsess⟩ := ho.data
      exact absurd ((Item.message.inj heq).2.trans hsess) (hdata _ _)
    · cases heq

/-- Data that is looked at is that of a request to which nothing has happened yet, and nothing of
what had the transaction before is on the way any more. -/
theorem Lines.data_arrived {t : TransactionId} {payload : Octets}
    (ht : (l p).entity.task? id = some (.receiving (.arrived (.data t payload))))
    (hflag : t.flag = false) : ∃ i sess, (l p).origin id = some i ∧ (l p).latest = some id ∧
      t.value.toNat < transactionCount ∧
      (l p).queue = .message i (.data t payload) :: (l p).inbound.map Item.ofParcel ∧
      behind (l p) (own t.value.toNat) = [] ∧ Tail (l p) t.value.toNat [] ∧
      Open (memory h p.peer) (l p.peer) t.value.toNat i sess [] ∧
      (memory h p.peer).story i = [] ∧ sess.message.encode = .ok payload := by
  obtain ⟨sender, horigin, hlatest, hn, hqueue, hlane⟩ := hl.arrived ht (eq_own hflag)
  rcases (hl.other_stage hn).lane_cases hlane with ⟨_, _, _, _, _, heq, -⟩ |
    ⟨i, sess, heq, hbehind, htail, ho, hstory⟩ | ⟨_, _, _, heq, -⟩
  · cases heq
  · obtain ⟨rfl, hdata⟩ := Item.message.inj heq
    obtain ⟨octets, hoctets, hsess⟩ := ho.data
    rw [hsess] at hdata
    obtain ⟨-, rfl⟩ := Control.Message.data.inj hdata
    exact ⟨_, sess, horigin, hlatest, hn, hqueue, hbehind, htail, ho, hstory, hoctets⟩
  · cases heq

/-- A request is taken for a repetition while what had the transaction before is not over. -/
theorem Turn.passedOver {t : TransactionId} {payload : Octets}
    (hm : Moved l l' p (.run id) [.emitted id (.ack t.reverse)] cause inbound)
    (he : (l' p).entity = (l p).entity.settle id (some (.receiving (.replying (.ok ()))))
      (l p).entity.outgoing (l p).entity.incoming)
    (ht : (l p).entity.task? id = some (.receiving (.arrived (.data t payload))))
    (hflag : t.flag = false) (hheld : (l p).entity.incoming.isHeld t.value.toNat = true) :
    Turn h l l' p (.run id) [.emitted id (.ack t.reverse)] := by
  obtain ⟨i, sess, horigin, hlatest, hn, hqueue, hbehind, htail, ho, hstory, -⟩ :=
    hl.data_arrived ht hflag
  have hact : Entity.Act (l p).entity id (.run id) (.receiving (.arrived (.data t payload)))
      (some (.receiving (.replying (.ok ())))) (l p).entity.outgoing (l p).entity.incoming
      [.emitted id (.ack t.reverse)] := .passedOver hflag hheld
  have hqueue' := hm.queue_of_looked he ht hact hlatest (by rintro _ ⟨⟩; rfl)
  obtain ⟨hsame, hmem⟩ := Side.lanes_of_looked hqueue (.inl hqueue')
  rw [reverse_eq hflag] at hm hact ⊢
  have hentry : entryIn? p.peer i ⟨l, (p, .run id), [.emitted id (.ack (other t.value.toNat))], l'⟩ =
      some (.passedOver id) := by
    rw [entryIn?_mover]
    refine (if_pos horigin).trans ?_
    simp only [happening, ht, hflag, hheld, and_self, if_true]
  refine .of_other hl hm he ht hact hn ?_ ⟨ownLine?_arrived hflag, rfl⟩
    (fun u hne => hsame u fun heq => hne (heq.trans (eq_own hflag))) hmem
    (by simp [parcels, Control.Message.transaction]) ?_
  · rintro k (hk | ⟨⟨⟩⟩)
    rw [otherLine?_arrived (m := .data t payload) hflag] at hk
    exact (Option.some.inj hk).symm
  · have hkeep := keepsServer_settle he ht rfl rfl t.value.toNat
    refine .trailing (htail.congr hkeep) ?_ (.passedOver
      (ho.hear asked_peer hm.entity_peer (hm.down_peer_of_eq rfl rfl))
      ((story_snoc_of_some hentry).trans (by rw [show story h p.peer i = [] from hstory]; rfl)))
    unfold Side.lane
    rw [hqueue']
    exact hbehind

/-- A request is read. -/
theorem Turn.lookedAt {t : TransactionId} {payload : Octets} {request : Relay.Message}
    (hm : Moved l l' p (.run id) [] cause inbound)
    (he : (l' p).entity = (l p).entity.settle id (some (.receiving (.opening t request)))
      (l p).entity.outgoing (l p).entity.incoming)
    (ht : (l p).entity.task? id = some (.receiving (.arrived (.data t payload))))
    (hflag : t.flag = false) (hheld : (l p).entity.incoming.isHeld t.value.toNat = false)
    (hjudge : judgeRequest payload = .ok request) : Turn h l l' p (.run id) [] := by
  obtain ⟨i, sess, horigin, hlatest, hn, hqueue, hbehind, htail, ho, hstory, hencode⟩ :=
    hl.data_arrived ht hflag
  have hact : Entity.Act (l p).entity id (.run id) (.receiving (.arrived (.data t payload)))
      (some (.receiving (.opening t request))) (l p).entity.outgoing (l p).entity.incoming [] :=
    .lookedAt hflag hheld hjudge
  have hqueue' := hm.queue_of_read hl he ht hact hlatest horigin rfl
  obtain ⟨hsame, hmem⟩ := Side.lanes_of_looked hqueue (.inr ⟨.request i t request, rfl, hqueue'⟩)
  obtain ⟨hread, hreq⟩ := judgeRequest_eq_ok.1 hjudge
  refine .of_other hl hm he ht hact hn ?_ ⟨ownLine?_arrived hflag, rfl⟩
    (fun u hne => hsame u fun heq => hne (heq.trans (eq_own hflag))) hmem (by simp [parcels]) ?_
  · rintro k (hk | hk)
    · rw [otherLine?_arrived (m := .data t payload) hflag] at hk
      exact (Option.some.inj hk).symm
    · rw [Option.bind_some, otherLine?, hflag] at hk
      exact (Option.some.inj hk).symm
  · have hkeep := keepsServer_settle he ht rfl rfl t.value.toNat
    have hnone (i : TaskId) : entryIn? p.peer i ⟨l, (p, .run id), [], l'⟩ = none := by
      rw [entryIn?_mover]
      simp [actor?, happening, ht, hheld]
    refine hm.silent rfl (.live (.looked ho hstory
      (hkeep.2 ((hl.steady p).incoming.vacant_of_isHeld hheld)) ?_ ⟨payload, hencode, hread⟩ hreq))
      hnone
    rw [← eq_own hflag] at hbehind ⊢
    exact (Side.lane_of_queue hqueue').trans ((if_pos rfl).trans (congrArg _ hbehind))

/-- A request that has been read is the only one on its transaction, which is vacant. -/
theorem Lines.request_read {t : TransactionId} {request : Relay.Message}
    (ht : (l p).entity.task? id = some (.receiving (.opening t request))) :
    ∃ i sess, (l p).origin id = some i ∧ (l p).latest = some id ∧ t.flag = false ∧
      t.value.toNat < transactionCount ∧
      (l p).queue = .request i t request :: (l p).inbound.map Item.ofParcel ∧
      behind (l p) (own t.value.toNat) = [] ∧ Vacant (l p).entity.leaseIn? t.value.toNat ∧
      Open (memory h p.peer) (l p.peer) t.value.toNat i sess [] ∧
      (memory h p.peer).story i = [] ∧ Reads sess.message request ∧ request.isRequest = true := by
  obtain ⟨sender, horigin, hlatest, hflag, hn, hqueue, hlane⟩ := hl.read ht
  rcases (hl.other_stage hn).lane_cases hlane with ⟨_, _, _, _, _, heq, -⟩ |
    ⟨_, _, heq, -⟩ | ⟨i, sess, r, heq, hbehind, ho, hstory, hv, hreads, hreq⟩
  · cases heq
  · cases heq
  · obtain ⟨rfl, -, rfl⟩ := Item.request.inj heq
    exact ⟨_, sess, horigin, hlatest, hflag, hn, hqueue, hbehind, hv, ho, hstory, hreads, hreq⟩

/-- A request takes its transaction, and its acknowledgement is on the way. -/
theorem Turn.accepted {t : TransactionId} {request : Relay.Message} {lease : Lease}
    (hm : Moved l l' p (.run id) [.emitted id (.ack t.reverse)] cause inbound)
    (he : (l' p).entity = (l p).entity.settle id
      (some (.receiving (.accepting ⟨request, lease, t.reverse⟩))) (l p).entity.outgoing incoming)
    (ht : (l p).entity.task? id = some (.receiving (.opening t request)))
    (hlease : (l p).entity.incoming.leaseAt? t.value.toNat () = some (lease, incoming)) :
    Turn h l l' p (.run id) [.emitted id (.ack t.reverse)] := by
  obtain ⟨i, sess, horigin, hlatest, hflag, hn, hqueue, hbehind, hv, ho, hstory, hreads, hreq⟩ :=
    hl.request_read ht
  have hact : Entity.Act (l p).entity id (.run id) (.receiving (.opening t request))
      (some (.receiving (.accepting ⟨request, lease, t.reverse⟩))) (l p).entity.outgoing incoming
      [.emitted id (.ack t.reverse)] := .accepted hlease
  have hqueue' := hm.queue_of_looked he ht hact hlatest (by rintro _ ⟨⟩; rfl)
  obtain ⟨hsame, hmem⟩ := Side.lanes_of_looked hqueue (.inl hqueue')
  obtain ⟨hindex, hb⟩ := (hl.steady p).server_leased he ht hlease rfl
  have hserves : Serves (l' p) i sess.message t.value.toNat id ⟨request, lease, t.reverse⟩ :=
    ⟨(hm.origin_mover (hl.steady p).orderly ht).trans horigin, hreads, hreq, reverse_eq hflag⟩
  rw [reverse_eq hflag] at hm he hact hb hserves ⊢
  refine .of_other hl hm he ht hact hn ?_ ⟨rfl, rfl⟩
    (fun u hne => hsame u fun heq => hne (heq.trans (eq_own hflag))) hmem
    (by simp [parcels, Control.Message.transaction]) ?_
  · rintro k (hk | hk)
    · rw [otherLine?, hflag] at hk
      exact (Option.some.inj hk).symm
    · rw [Option.bind_some, otherLine?_of_lease rfl, hindex] at hk
      exact (Option.some.inj hk).symm
  · have hnone := hm.entry_eq_none ht rfl rfl
    refine .live (.accepting (ho.hear asked_peer hm.entity_peer (hm.down_peer_of_eq rfl rfl))
      ((story_snoc_of_none (hnone i)).trans hstory) hb ?_ hserves)
    unfold Side.lane
    rw [hqueue']
    exact hbehind

end

/-! ## Moves of no task -/

/-- A step that is about no task. -/
theorem Turn.of_start (hl : Lines h l) (hm : Moved l l' p move [] cause inbound)
    (hactor : actor? move = none) (hqueue : (l' p).queue = (l p).queue)
    (hkeep : ∀ n, KeepsClient (l p).entity (l' p).entity n ∧
      KeepsServer (l p).entity (l' p).entity n) : Turn h l l' p move [] where
  ownLines n hn := hm.own_frame hl hn (hkeep n).1 (by simp [hactor]) (Side.lane_congr hqueue _)
    (by simp [parcels])
  otherLines n hn := hm.other_frame hl hn (hkeep n).2 (fun _ => by rw [entryIn?_mover, hactor]; rfl)
    (Side.lane_congr hqueue _) (by simp [parcels])
  range item hitem := hl.range p item (hqueue ▸ hitem)
  emitted := by simp [parcels]

/-- A message is handed to the entity when it is the oldest on the way. -/
theorem Turn.started (hl : Lines h l) {input : Input}
    (hm : Moved l l' p (.start input) [] cause inbound)
    (he : (l' p).entity = (l p).entity.spawn (Entity.taskFor input)) :
    Turn h l l' p (.start input) [] := by
  have hs := hl.steady p
  have hadmits := hm.admits
  have hkeep (n : Nat) : KeepsClient (l p).entity (l' p).entity n ∧
      KeepsServer (l p).entity (l' p).entity n := by
    rw [he]
    exact hs.keeps_spawn (by cases input <;> rfl) (by cases input <;> rfl) n
  cases input with
  | send m =>
    simp only [Side.admits?, Option.ite_none_right_eq_some, Option.some.injEq,
      Prod.mk.injEq] at hadmits
    obtain ⟨-, -, rfl⟩ := hadmits
    refine .of_start hl hm rfl ?_ hkeep
    rw [hm.mover, he]
    refine Side.queue_of_not_looking hs.orderly (by rintro _ ⟨⟩) fun j x hx => ?_
    rw [hs.orderly.task?_spawn]
    split
    · rename_i hj
      rw [hj, hs.orderly.fresh (Nat.le_refl _)]
      refine ⟨?_, by rintro ⟨⟩⟩
      rintro ⟨⟩
      cases hx
    · exact Iff.rfl
  | receive m =>
    refine .of_start hl hm rfl ?_ hkeep
    simp only [Side.admits?] at hadmits
    split at hadmits
    case h_2 => cases hadmits
    rename_i parcel rest hinbound
    split at hadmits
    case isFalse => cases hadmits
    rename_i hready
    obtain ⟨hready, rfl⟩ := hready
    cases hadmits
    rw [hm.mover, he]
    exact Side.queue_of_start hs.orderly hready hinbound
  | receiveOctets octets => cases hm.calm

/-- Every step keeps all lines in their stages. -/
theorem Lines.turn (hl : Lines h l) (hm : Moved l l' p move events cause inbound) :
    Turn h l l' p move events := by
  have hcalm := hm.calm
  have hrule := hm.rule
  generalize he : (l' p).entity = e at hrule
  cases hrule with
  | start input => exact .started hl hm he
  | handedOver ht => exact .handedOver hl hm he ht
  | elapsed duration =>
    have hadmits := hm.admits
    cases hadmits
    refine .of_start hl hm rfl ?_ fun n => ?_
    · rw [hm.mover, he]
      exact Side.queue_of_not_looking (hl.steady p).orderly (by rintro _ ⟨⟩) fun _ _ _ => Iff.rfl
    · rw [he]
      exact ⟨⟨fun hc => hc, fun hv => hv⟩, ⟨fun hb => hb, fun hv => hv⟩⟩
  | act ht ha =>
    cases ha with
    | congested hlease =>
      exact .of_none hl hm he ht (.congested hlease) ⟨rfl, rfl⟩ ⟨rfl, rfl⟩
        (hm.queue_of_act hl he ht (.congested hlease) rfl) rfl
    | opened hlease hdata => exact .opened hl hm he ht hlease hdata
    | unwritable hlease hdata => exact .unwritable hl hm he ht hlease hdata
    | delivered htake hf => exact .delivered hl hm he ht htake hf
    | took htake hf => exact .took hl hm he ht htake hf
    | lapsed _ hreleased =>
      have := (hl.steady p).outgoing.kept (Entity.leaseOut?_eq ht)
      rw [hreleased] at this
      cases this
    | tookLate | tookNothing => exact absurd ht (hl.steady p).unexpired
    | closed => exact .closed hl hm he ht
    | transmitted => exact .transmitted hl hm he ht rfl
    | concluded => exact .concluded hl hm he ht
    | called hcall => exact .called hl hm he ht hcall
    | uncalled hcall =>
      obtain ⟨hn, hb⟩ := (hl.steady p).server_of_lease ht rfl
      obtain ⟨_, _, -, -, -, -, hserves⟩ := (hl.other_stage hn).accepted (hl.steady p) hb
      obtain ⟨call, hsome⟩ := call?_of_isRequest hserves.isRequest
      rw [hsome] at hcall
      cases hcall
    | replied hanswer hdata => exact .replied hl hm he ht hanswer hdata
    | unreplied hfailure => exact .unreplied hl hm he ht hfailure
    | confirmed htake => exact .confirmed hl hm he ht htake
    | served => exact .served hl hm he ht
    | replyTransmitted => exact .replyTransmitted hl hm he ht
    | @refusalTransmitted _ result =>
      cases result with
      | ok => exact .refusalTransmitted hl hm he ht
      | error => cases hcalm
    | read | unknown | unknownStray | unread => exact absurd ht (hl.steady p).unread
    | posted hflag hpost => exact .posted hl hm he ht hflag hpost
    | postedIncoming hflag hdata hpost => exact .postedIncoming hl hm he ht hflag hdata hpost
    | strayError hpost =>
      obtain ⟨_, hok⟩ := hl.post_eq_ok ht (by rintro _ _ _ ⟨⟩)
      exact absurd (hok.symm.trans hpost) (by rintro ⟨⟩)
    | stray hpost hdata =>
      obtain ⟨_, hok⟩ := hl.post_eq_ok ht hdata
      exact absurd (hok.symm.trans hpost) (by rintro ⟨⟩)
    | passedOver hflag hheld => exact .passedOver hl hm he ht hflag hheld
    | lookedAt hflag hheld hjudge => exact .lookedAt hl hm he ht hflag hheld hjudge
    | rejected hflag hheld hjudge =>
      obtain ⟨_, _, -, -, -, -, -, -, ho, -, hencode⟩ := hl.data_arrived ht hflag
      obtain ⟨_, hok⟩ := judgeRequest_of_encode hencode ho.isRequest
      rw [hok] at hjudge
      cases hjudge
    | accepted hlease => exact .accepted hl hm he ht hlease
    | tooLate hlease =>
      obtain ⟨_, _, -, -, -, hn, -, -, hv, -⟩ := hl.request_read ht
      refine absurd hlease ((hl.steady p).incoming.leaseAt?_ne_none hv ?_ _)
      rw [(hl.steady p).orderly.incoming_length]
      exact hn
    | withdrawn =>
      obtain ⟨hn, hb⟩ := (hl.steady p).server_of_lease ht rfl
      exact absurd hb ((hl.other_stage hn).not_withdrawing (hl.steady p))
    | replyDone =>
      exact .of_none hl hm he ht .replyDone ⟨rfl, rfl⟩ ⟨rfl, rfl⟩
        (hm.queue_of_act hl he ht .replyDone rfl) rfl
    | _ => cases hcalm

end ShortMessage.Link
