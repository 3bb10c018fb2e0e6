import ShortMessage.Proofs.Link.Answers
import ShortMessage.Proofs.Link.Turns

/-!
# The steps of tasks that serve

A task that serves asks the application, hands the answer to the transport and waits until it is
acknowledged.  Each of its steps keeps the line of its transaction in a stage and leaves all other
lines as they were, and so does the step that starts it (`Turn.handedOver`).
-/

namespace ShortMessage.Link

open Control Transaction
open Control.Entity (outgoingLease? incomingLease?)

variable {h : List Passage} {l l' : State} {p : Party} {move : Move Input}
  {events : List (Event Control.Message Result)} {cause : Option TaskId} {inbound : List Parcel}
  {id i j n : Nat} {task' : Option Task} {outgoing incoming : Table Control.Message Unit}

/-! ## Tasks that serve -/

section

variable {service : Control.Service} {lease : Lease} {data m : Control.Message}
  {handover : Handover} {repeated deadline : Nat} (hl : Lines h l)

include hl

/-- The application is asked. -/
theorem Turn.called {call : Service.Call}
    (hm : Moved l l' p (.run id) [.called id call] cause inbound)
    (he : (l' p).entity = (l p).entity.settle id (some (.serving (.handling service)))
      (l p).entity.outgoing (l p).entity.incoming)
    (ht : (l p).entity.task? id = some (.serving (.accepted service)))
    (hcall : Service.call? service.request = some call) :
    Turn h l l' p (.run id) [.called id call] := by
  obtain ⟨hn, hb⟩ := (hl.steady p).server_of_lease ht rfl
  obtain ⟨i, sess, ho, hstory, hbox, hlane, hserves⟩ :=
    (hl.other_stage hn).accepted (hl.steady p) hb
  have hb' := hb.keep he rfl
  rw [hbox] at hb'
  have hentry : entryIn? p.peer i ⟨l, (p, .run id), [.called id call], l'⟩ = some (.called id call) := by
    rw [entryIn?_mover]
    exact if_pos hserves.origin
  refine .of_server hl hm he ht (.called hcall) rfl (by rintro _ ⟨⟩; rfl) (by simp [parcels])
    fun hsame => ?_
  refine .live (.handling (ho.congr asked_peer ?_ (by rw [hm.peer_eq rfl])) ?_ hb'
    (hsame.trans hlane) (hserves.congr (hm.origin_mover (hl.steady p).orderly ht)) hcall)
  · rw [hm.entity_peer]
    exact fun hc => hc
  · exact (story_snoc_of_some hentry).trans (by rw [show story h p.peer i = [] from hstory]; rfl)

/-- The application has answered, and its answer is on the way. -/
theorem Turn.replied {outcome : Service.Outcome} {now : Timestamp} {answer : Relay.Message}
    (hm : Moved l l' p (.answered id outcome now) [.emitted id data] cause inbound)
    (he : (l' p).entity = (l p).entity.settle id
      (some (.serving (.delivering service.lease data (.transmitting 0)))) (l p).entity.outgoing
      (l p).entity.incoming)
    (ht : (l p).entity.task? id = some (.serving (.handling service)))
    (hanswer : Service.answer service.request outcome now = .ok answer)
    (hdata : Message.carrying service.transaction answer = .ok data) :
    Turn h l l' p (.answered id outcome now) [.emitted id data] := by
  obtain ⟨hn, hb⟩ := (hl.steady p).server_of_lease ht rfl
  obtain ⟨i, sess, call, ho, hstory, hbox, hlane, hserves, hcall⟩ :=
    (hl.other_stage hn).handling (hl.steady p) hb
  have hb' := hb.keep he rfl
  rw [hbox] at hb'
  have hact : Entity.Act (l p).entity id (.answered id outcome now) (.serving (.handling service))
      (some (.serving (.delivering service.lease data (.transmitting 0)))) (l p).entity.outgoing
      (l p).entity.incoming [.emitted id data] := .replied hanswer hdata
  obtain ⟨octets, hoctets, rfl⟩ := carrying_eq_ok hdata
  obtain ⟨reply, hreply, hjudge⟩ := judgeAnswer_of_answer hserves.reads hanswer hoctets
  rw [hserves.transaction] at hm he hact hb' ⊢
  have hentry : entryIn? p.peer i ⟨l, (p, .answered id outcome now),
      [.emitted id (.data (other service.lease.index) octets)], l'⟩ =
        some (.decided id outcome now) := by
    rw [entryIn?_mover]
    exact if_pos hserves.origin
  refine .of_server hl hm he ht hact rfl (by rintro _ ⟨⟩; rfl) (by simp [parcels]; rfl)
    fun hsame => ?_
  refine .live (.replied (ho.hear asked_peer hm.entity_peer (hm.down_peer_of_eq rfl rfl)) hb'
    (hsame.trans hlane) hjudge (.answered ⟨hserves.reads, id, call, hcall, ?_⟩ hanswer hoctets hreply))
  exact (story_snoc_of_some hentry).trans
    (by rw [show story h p.peer i = [.called id call] from hstory]; rfl)

/-- The application has answered, but there is no answer that can be written. -/
theorem Turn.unreplied {outcome : Service.Outcome} {now : Timestamp} {failure : Failure}
    (hm : Moved l l' p (.answered id outcome now) [.emitted id
      (.error service.transaction (failure.controlCause?.getD .protocolError))] cause inbound)
    (he : (l' p).entity = (l p).entity.settle id (some (.serving (.refusing service.lease)))
      (l p).entity.outgoing (l p).entity.incoming)
    (ht : (l p).entity.task? id = some (.serving (.handling service)))
    (hfailure : (do let answer ← Service.answer service.request outcome now
                    (Message.carrying service.transaction answer).mapError Failure.codec) =
      .error failure) :
    Turn h l l' p (.answered id outcome now)
      [.emitted id (.error service.transaction (failure.controlCause?.getD .protocolError))] := by
  obtain ⟨hn, hb⟩ := (hl.steady p).server_of_lease ht rfl
  obtain ⟨i, sess, call, ho, hstory, hbox, hlane, hserves, hcall⟩ :=
    (hl.other_stage hn).handling (hl.steady p) hb
  have hb' := hb.keep he rfl
  rw [hbox] at hb'
  have hact : Entity.Act (l p).entity id (.answered id outcome now) (.serving (.handling service))
      (some (.serving (.refusing service.lease))) (l p).entity.outgoing (l p).entity.incoming
      [.emitted id (.error service.transaction (failure.controlCause?.getD .protocolError))] :=
    .unreplied hfailure
  obtain ⟨hcause, hnone⟩ := refusal_eq hfailure
  rw [hcause, hserves.transaction] at hm hact ⊢
  have hentry : entryIn? p.peer i ⟨l, (p, .answered id outcome now),
      [.emitted id (.error (other service.lease.index) (refusalCause outcome))], l'⟩ =
        some (.decided id outcome now) := by
    rw [entryIn?_mover]
    exact if_pos hserves.origin
  refine .of_server hl hm he ht hact rfl (by rintro _ ⟨⟩; rfl) (by simp [parcels]; rfl)
    fun hsame => ?_
  refine .trailing (.refusing hb') (hsame.trans hlane) (.refused
    (ho.hear asked_peer hm.entity_peer (hm.down_peer_of_eq rfl rfl))
    (.refused ⟨hserves.reads, id, call, hcall, ?_⟩ hnone))
  exact (story_snoc_of_some hentry).trans
    (by rw [show story h p.peer i = [.called id call] from hstory]; rfl)

/-- The answer is with the other party. -/
theorem Turn.replyTransmitted (hm : Moved l l' p (.sent id (.ok ())) [] cause inbound)
    (he : (l' p).entity = (l p).entity.settle id (some (.serving (.delivering lease data
      (.awaiting repeated ((l p).entity.clock + (l p).entity.config.ackTime)))))
      (l p).entity.outgoing (l p).entity.incoming)
    (ht : (l p).entity.task? id = some (.serving (.delivering lease data (.transmitting repeated)))) :
    Turn h l l' p (.sent id (.ok ())) [] := by
  obtain ⟨hn, hb⟩ := (hl.steady p).server_of_lease ht rfl
  have hb' := hb.keep he rfl
  refine .of_server hl hm he ht .replyTransmitted rfl (by rintro _ ⟨⟩; rfl) (by simp [parcels])
    fun hsame => ?_
  exact hm.silent rfl ((hl.other_stage hn).replyTransmitted (hl.steady p) hb hb' hsame)
    (hm.entry_eq_none ht rfl rfl)

/-- A task that has nothing more to say takes leave of its line, step by step. -/
theorem Turn.leaving {task : Task} {events : List (Event Control.Message Result)}
    (hm : Moved l l' p move events cause inbound)
    (he : (l' p).entity = (l p).entity.settle id task' outgoing incoming)
    (ht : (l p).entity.task? id = some task)
    (ha : Entity.Act (l p).entity id move task task' outgoing incoming events)
    (hlease : incomingLease? task = some lease)
    (hafter : ∀ x, task' = some x → incomingLease? x = some lease)
    (hleaving : leaving task ((l p).entity.incoming.pending lease) = true)
    (hnil : parcels events = []) (htail : Tail (l' p) lease.index []) :
    Turn h l l' p move events := by
  obtain ⟨hn, hb⟩ := (hl.steady p).server_of_lease ht hlease
  obtain ⟨htrailing, -⟩ := (hl.other_stage hn).leaving (hl.steady p) hb hleaving
  refine .of_server hl hm he ht ha hlease hafter (by simp [hnil]) fun hsame => ?_
  refine hm.silent hnil (.trailing htail hsame htrailing) (hm.entry_eq_none ht ha.actor ?_)
  cases task with
  | serving s => cases s <;> first | rfl | cases hleaving
  | _ => cases hleaving

/-- The answer has been acknowledged. -/
theorem Turn.confirmed (hm : Moved l l' p (.run id) [] cause inbound)
    (he : (l' p).entity = (l p).entity.settle id (some (.serving (.closing lease)))
      (l p).entity.outgoing incoming)
    (ht : (l p).entity.task? id =
      some (.serving (.delivering lease data (.awaiting repeated deadline))))
    (htake : (l p).entity.incoming.take? lease = some (m, incoming)) :
    Turn h l l' p (.run id) [] := by
  obtain ⟨hn, hb⟩ := (hl.steady p).server_of_lease ht rfl
  obtain ⟨rest, hbox, hb'⟩ := hb.take he rfl rfl htake
  rw [hbox] at hb
  obtain ⟨-, hlength⟩ := (hl.other_stage hn).leaving (hl.steady p) hb rfl
  obtain rfl : rest = [] := List.length_eq_zero_iff.1 (Nat.le_zero.1 (Nat.le_of_succ_le_succ hlength))
  exact .leaving hl hm he ht (.confirmed htake) rfl (by rintro _ ⟨⟩; rfl) (by rw [hbox]; rfl) rfl
    (.closing hb')

/-- The error is with the other party. -/
theorem Turn.refusalTransmitted (hm : Moved l l' p (.sent id (.ok ())) [] cause inbound)
    (he : (l' p).entity = (l p).entity.settle id (some (.serving (.closing lease)))
      (l p).entity.outgoing (l p).entity.incoming)
    (ht : (l p).entity.task? id = some (.serving (.refusing lease))) :
    Turn h l l' p (.sent id (.ok ())) [] := by
  obtain ⟨hn, hb⟩ := (hl.steady p).server_of_lease ht rfl
  have hb' := hb.keep he rfl
  obtain ⟨-, hlength⟩ := (hl.other_stage hn).leaving (hl.steady p) hb rfl
  rw [List.length_eq_zero_iff.1 (Nat.le_zero.1 hlength)] at hb'
  exact .leaving hl hm he ht .refusalTransmitted rfl (by rintro _ ⟨⟩; rfl) rfl rfl (.closing hb')

/-- A task that serves ends. -/
theorem Turn.served (hm : Moved l l' p (.run id) [.returned id .served] cause inbound)
    (he : (l' p).entity = (l p).entity.settle id none (l p).entity.outgoing
      ((l p).entity.incoming.drop lease))
    (ht : (l p).entity.task? id = some (.serving (.closing lease))) :
    Turn h l l' p (.run id) [.returned id .served] := by
  obtain ⟨hn, hb⟩ := (hl.steady p).server_of_lease ht rfl
  have hv := hb.drop (hl.steady p) he
  exact .leaving hl hm he ht .served rfl (by rintro _ ⟨⟩) rfl rfl (.gone hv)

section

variable (hm : Moved l l' p (.sent id (.ok ())) [.returned id (.received (.ok ()))] cause inbound)
  (he : (l' p).entity = ((l p).entity.spawn (.serving (.accepted service))).remove id)
  (ht : (l p).entity.task? id = some (.receiving (.accepting service)))

include hm he ht

theorem Moved.queue_of_handedOver : (l' p).queue = (l p).queue := by
  have ho := (hl.steady p).orderly
  obtain ⟨rfl, -⟩ := hm.admitted rfl
  rw [hm.mover]
  refine Side.queue_of_not_looking ho (by rintro _ ⟨⟩) fun j x hx => ?_
  rw [he, ho.task?_handedOver ht]
  split
  · rename_i hj
    rw [hj, ho.fresh (Nat.le_refl _)]
    refine ⟨?_, by rintro ⟨⟩⟩
    rintro ⟨⟩
    cases hx
  · split
    · rename_i hj
      rw [hj, ht]
      refine ⟨by rintro ⟨⟩, ?_⟩
      rintro ⟨⟩
      cases hx
    · exact Iff.rfl

/-- A task of its own goes on to serve an acknowledged request. -/
theorem Turn.handedOver : Turn h l l' p (.sent id (.ok ())) [.returned id (.received (.ok ()))] := by
  have hs := hl.steady p
  have hentry := hm.entry_eq_none ht rfl rfl
  have hqueue := hm.queue_of_handedOver hl he ht
  refine ⟨fun n hn => hm.own_frame hl hn ?_ ?_ (Side.lane_congr hqueue _) (by simp [parcels]),
    fun n hn => ?_, fun item hitem => hl.range p item (hqueue ▸ hitem), by simp [parcels]⟩
  · rw [he]
    exact (hs.keeps_handedOver ht).1
  · rintro i phase mail hc hactor
    cases hactor
    have := hc.1
    rw [ht] at this
    cases this
  · by_cases hindex : service.lease.index = n
    · subst hindex
      obtain ⟨i, sess, ho, hstory, hbox, hlane, hserves⟩ :=
        (hl.other_stage hn).accepting hs (hs.server_of_lease ht rfl).2
      have hb := hs.server_handedOver ht (hs.server_of_lease ht rfl).2
      rw [← he, hbox] at hb
      have horigin : (l' p).origin (l p).entity.started = some i := by
        rw [hm.mover]
        refine (if_pos rfl).trans ?_
        rw [(hm.admitted rfl).2]
        exact hserves.origin
      exact hm.silent rfl (.live (.accepted ho hstory hb ((Side.lane_congr hqueue _).trans hlane)
        ⟨horigin, hserves.reads, hserves.isRequest, hserves.transaction⟩)) hentry
    · refine hm.other_frame hl hn ?_ (fun _ => hentry _) (Side.lane_congr hqueue _) (by simp [parcels])
      rw [he]
      exact (hs.keeps_handedOver ht).2 hindex

end

end

end ShortMessage.Link
