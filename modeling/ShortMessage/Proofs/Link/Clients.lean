import ShortMessage.Proofs.Link.Turns

/-!
# The steps of tasks that send

A task that sends opens a transaction, hands its request to the transport and waits for the answer.
Each of its steps keeps the line of its transaction in a stage (`Turn.of_client`) and leaves all other
lines as they were.
-/

namespace ShortMessage.Link

open Control Transaction
open Control.Entity (outgoingLease? incomingLease?)

variable {h : List Passage} {l l' : State} {p : Party} {move : Move Input}
  {events : List (Event Control.Message Result)} {cause : Option TaskId} {inbound : List Parcel}
  {id i j n : Nat} {task' : Option Task} {outgoing incoming : Table Control.Message Unit}

/-! ## Tasks that send -/

section

variable {phase : Sending} (hl : Lines h l) (hm : Moved l l' p move events cause inbound)
  (he : (l' p).entity = (l p).entity.settle id task' outgoing incoming)
  (ht : (l p).entity.task? id = some (.sending phase))
  (ha : Entity.Act (l p).entity id move (.sending phase) task' outgoing incoming events)

include hl hm he ht ha

/-- A step of a task that sends on the transaction `n`. -/
theorem Turn.of_client (hn : n < transactionCount)
    (hown : ∀ {k}, ownLine? (.sending phase) = some k ∨ task'.bind ownLine? = some k → k = n)
    (hemit : ∀ parcel ∈ parcels events, parcel.message.transaction = own n)
    (hst : (l' p).down n = (l p).down n →
      Stage (memory (h ++ [⟨l, (p, move), events, l'⟩]) p) (l' p) (l' p.peer) n) :
    Turn h l l' p move events := by
  have hqueue := hm.queue_of_act hl he ht ha rfl
  refine .of_own hl hm he ht ha hn hown ⟨rfl, ?_⟩ (fun t _ => Side.lane_congr hqueue t)
    (fun item hitem => hqueue ▸ hitem) hemit (hst (Side.down_congr (Side.lane_congr hqueue _)))
  generalize hx : Task.sending phase = x at ha
  cases ha <;> first | rfl | cases hx

end

section

variable {m : Control.Message} {msg : Relay.Message} {s : Session} {lease : Lease}
  {data : Control.Message} {repeated deadline : Nat} {outcome : Outcome}
  (hl : Lines h l)

include hl

/-- A request takes a transaction, and its data is on the way. -/
theorem Turn.opened (hm : Moved l l' p (.run id) [.emitted id data] cause inbound)
    (he : (l' p).entity = (l p).entity.settle id
      (some (.sending (.delivering ⟨msg, lease, data⟩ (.transmitting 0)))) outgoing
      (l p).entity.incoming)
    (ht : (l p).entity.task? id = some (.sending (.opening msg)))
    (hlease : (l p).entity.outgoing.lease? () = some (lease, outgoing))
    (hdata : Message.carrying ⟨false, UInt8.ofNat lease.index⟩ msg = .ok data) :
    Turn h l l' p (.run id) [.emitted id data] := by
  obtain ⟨hv, hn, hclient⟩ := (hl.steady p).client_leased he ht hlease rfl
  obtain ⟨octets, hoctets, rfl⟩ := carrying_eq_ok hdata
  obtain ⟨hasked, hreq, hstory, -⟩ := hl.opening ht
  refine .of_client hl hm he ht (.opened hlease hdata) hn ?_ (by simp [parcels]; rfl) fun hdown => ?_
  · rintro k (⟨⟨⟩⟩ | ⟨⟨⟩⟩)
    rfl
  · have ho (hd : (l p).down lease.index = []) :
        Open (memory (h ++ [⟨l, (p, .run id), [.emitted id (.data (own lease.index) octets)], l'⟩]) p)
          (l' p) lease.index id ⟨msg, lease, .data (own lease.index) octets⟩ [] := by
      refine ⟨⟨_, _, hclient, ?_⟩, ?_, hreq, octets, hoctets, rfl⟩
      · rw [hdown, hd]
        exact .delivering
      · exact hm.asked_of_some hasked
    exact (hl.stage p _ hn).opened hv ho (story_mover.trans hstory)
      (keepsServer_refl hm.entity_peer) (hm.lane_peer_of_eq rfl rfl)

/-- A request that cannot be written has its outcome at once. -/
theorem Turn.unwritable {fault : Fault} (hm : Moved l l' p (.run id) [] cause inbound)
    (he : (l' p).entity = (l p).entity.settle id
      (some (.sending (.closing lease (.error (.codec fault))))) outgoing (l p).entity.incoming)
    (ht : (l p).entity.task? id = some (.sending (.opening msg)))
    (hlease : (l p).entity.outgoing.lease? () = some (lease, outgoing))
    (hdata : Message.carrying ⟨false, UInt8.ofNat lease.index⟩ msg = .error fault) :
    Turn h l l' p (.run id) [] := by
  obtain ⟨hv, hn, hclient⟩ := (hl.steady p).client_leased he ht hlease rfl
  obtain ⟨hasked, hreq, hstory, hemitted⟩ := hl.opening ht
  refine .of_client hl hm he ht (.unwritable hlease hdata) hn ?_ (by simp [parcels]) fun hdown => ?_
  · rintro k (⟨⟨⟩⟩ | ⟨⟨⟩⟩)
    rfl
  · refine (hl.stage p _ hn).unwritable hv hclient rfl hdown ?_ hreq
      (.unwritable (carrying_eq_error hdata) (story_mover.trans hstory) ?_)
      (keepsServer_refl hm.entity_peer) (by rw [hm.peer_eq rfl])
    · exact hm.asked_of_some hasked
    · show emissions (steps _ p) id = []
      rw [steps_mover, emissions_snoc]
      exact List.append_eq_nil_iff.2 ⟨hemitted, rfl⟩

/-- The data is with the other party. -/
theorem Turn.transmitted (hm : Moved l l' p (.sent id (.ok ())) [] cause inbound)
    (he : (l' p).entity = (l p).entity.settle id (some (.sending (.delivering s
      (.awaiting repeated deadline)))) (l p).entity.outgoing (l p).entity.incoming)
    (ht : (l p).entity.task? id = some (.sending (.delivering s (.transmitting repeated))))
    (hdeadline : deadline = (l p).entity.clock + (l p).entity.config.ackTime) :
    Turn h l l' p (.sent id (.ok ())) [] := by
  obtain ⟨hn, hc⟩ := (hl.steady p).client_of_lease ht rfl
  have hclient := hc.keep he rfl
  subst hdeadline
  refine .of_client hl hm he ht .transmitted hn ?_ (by simp [parcels]) fun hdown => ?_
  · rintro k (⟨⟨⟩⟩ | ⟨⟨⟩⟩) <;> rfl
  · rw [hm.peer_eq rfl]
    exact (hl.stage p _ hn).transmitted (hl.steady p) hc hclient hdown
      (hm.asked_of_ne (Nat.ne_of_gt ((hl.steady p).orderly.lt_started ht))) story_mover

/-- The acknowledgement has come. -/
theorem Turn.delivered {word : Option Control.Message} {phase : Sending}
    (hm : Moved l l' p (.run id) (Entity.saying id word) cause inbound)
    (he : (l' p).entity = (l p).entity.settle id (some (.sending phase)) outgoing
      (l p).entity.incoming)
    (ht : (l p).entity.task? id = some (.sending (.delivering s (.awaiting repeated deadline))))
    (htake : (l p).entity.outgoing.take? s.lease = some (m, outgoing))
    (hf : Entity.Follow (l p).entity s false m phase word) :
    Turn h l l' p (.run id) (Entity.saying id word) := by
  obtain ⟨hn, hc⟩ := (hl.steady p).client_of_lease ht rfl
  obtain ⟨rest, hmail, hclient⟩ := hc.take he rfl hf.lease htake
  rw [hmail] at hc
  obtain ⟨rfl, hreq, hgo⟩ := (hl.stage p _ hn).delivered (hl.steady p) hc
  cases hf with
  | arrived hnot =>
    rw [Bool.false_or, hreq] at hnot
    cases hnot
  | waits hwait =>
    refine .of_client hl hm he ht (.delivered htake (.waits hwait)) hn ?_
      (by simp [parcels, Entity.saying]) fun hdown => ?_
    · rintro k (⟨⟨⟩⟩ | ⟨⟨⟩⟩) <;> rfl
    · rw [hm.peer_eq rfl]
      exact hgo hclient hdown
        (hm.asked_of_ne (Nat.ne_of_gt ((hl.steady p).orderly.lt_started ht))) story_mover

/-- The answer has come, which is acknowledged, or an error instead of it. -/
theorem Turn.took {word : Option Control.Message} {phase : Sending}
    (hm : Moved l l' p (.run id) (Entity.saying id word) cause inbound)
    (he : (l' p).entity = (l p).entity.settle id (some (.sending phase)) outgoing
      (l p).entity.incoming)
    (ht : (l p).entity.task? id = some (.sending (.awaitingAnswer s deadline)))
    (htake : (l p).entity.outgoing.take? s.lease = some (m, outgoing))
    (hf : Entity.Follow (l p).entity s true m phase word) :
    Turn h l l' p (.run id) (Entity.saying id word) := by
  obtain ⟨hn, hc⟩ := (hl.steady p).client_of_lease ht rfl
  obtain ⟨rest, hmail, hclient⟩ := hc.take he rfl hf.lease htake
  rw [hmail] at hc
  obtain ⟨rfl, hd, hasked, hreq, ⟨_, -, hdata⟩, hcases⟩ :=
    (hl.stage p _ hn).took (hl.steady p) hc
  have hasked' := hm.asked_of_some hasked
  have hact : Entity.Act (l p).entity id (.run id) (.sending (.awaitingAnswer s deadline))
      (some (.sending phase)) outgoing (l p).entity.incoming (Entity.saying id word) :=
    .took htake hf
  have hown : ∀ {k}, ownLine? (.sending (.awaitingAnswer s deadline)) = some k ∨
      (some (Task.sending phase)).bind ownLine? = some k → k = s.lease.index := by
    rintro k (⟨⟨⟩⟩ | hk)
    · rfl
    · rw [Option.bind_some, ownLine?_of_lease hf.lease] at hk
      exact (Option.some.inj hk).symm
  -- the outcome is known, so that nothing but the other party's tail matters from now on
  have hended {outcome : Outcome} (hout : phase.outcome? = some outcome) (hdown : (l' p).down
      s.lease.index = (l p).down s.lease.index) (hdec : Decision s.message
      ((memory h p).story id) outcome) (front : List Item) :
      Trailing (memory (h ++ [⟨l, (p, .run id), Entity.saying id word, l'⟩]) p) (l' p)
        s.lease.index front [] := by
    refine .ended hclient hout (hdown.trans hd) hasked' hreq (.decided ?_)
    rw [show (memory _ p).story id = (memory h p).story id from story_mover]
    exact hdec
  rcases hcases with ⟨cause, rfl, hdec, htail, hlane⟩ |
    ⟨octets, reply, j, lease, handover, rfl, hjudge, hdec, hlane, hb⟩
  · cases hf with
    | arrived hnot => cases hnot
    | ended =>
      refine .of_client hl hm he ht hact hn hown (by simp [parcels, Entity.saying]) fun hdown => ?_
      refine .trailing ?_ ?_ (hended rfl hdown hdec [])
      · rw [hm.peer_eq rfl]
        exact htail
      · rw [hm.peer_eq rfl, hlane]
        rfl
  · cases hf with
    | arrived hnot => cases hnot
    | refused _ hbad =>
      rw [hjudge] at hbad
      cases hbad
    | answered _ hgood =>
      rw [hjudge] at hgood
      cases hgood
      rw [hdata] at hm hact hended ⊢
      refine .of_client hl hm he ht hact hn hown (by simp [parcels, Entity.saying]; rfl)
        fun hdown => ?_
      rw [← hm.entity_peer] at hb
      refine .trailing (.unacknowledged (k := id) hb) ?_ (hended rfl hdown hdec _)
      rw [hm.lane_peer_of_eq (t := own s.lease.index) rfl rfl, hlane]
      rfl

/-- The last word on a transaction is with the other party. -/
theorem Turn.concluded (hm : Moved l l' p (.sent id (.ok ())) [] cause inbound)
    (he : (l' p).entity = (l p).entity.settle id (some (.sending (.closing lease outcome)))
      (l p).entity.outgoing (l p).entity.incoming)
    (ht : (l p).entity.task? id = some (.sending (.concluding lease outcome))) :
    Turn h l l' p (.sent id (.ok ())) [] := by
  obtain ⟨hn, hc⟩ := (hl.steady p).client_of_lease ht rfl
  have hclient := hc.keep he rfl
  obtain ⟨front, msg, hmail, htail, hlane, hd, hasked, hreq, hverdict⟩ :=
    (hl.stage p _ hn).ended (hl.steady p) hc rfl
  refine .of_client hl hm he ht .concluded hn ?_ (by simp [parcels]) fun hdown => ?_
  · rintro k (⟨⟨⟩⟩ | ⟨⟨⟩⟩) <;> rfl
  · rw [hm.peer_eq rfl]
    refine .trailing htail (by rw [hlane, List.append_nil]) (.ended (hmail ▸ hclient) rfl
      (hdown.trans hd) (hm.asked_of_some hasked) hreq ?_)
    have hem : (memory (h ++ [⟨l, (p, .sent id (.ok ())), [], l'⟩]) p).emitted id =
        (memory h p).emitted id := by
      show emissions (steps _ p) id = _
      rw [steps_mover, emissions_snoc]
      exact List.append_nil _
    rw [hem, show (memory _ p).story id = (memory h p).story id from story_mover]
    exact hverdict

/-- A request ends, and its transaction is vacant. -/
theorem Turn.closed
    (hm : Moved l l' p (.run id) [.returned id (.sent outcome)] cause inbound)
    (he : (l' p).entity = (l p).entity.settle id none ((l p).entity.outgoing.drop lease)
      (l p).entity.incoming)
    (ht : (l p).entity.task? id = some (.sending (.closing lease outcome))) :
    Turn h l l' p (.run id) [.returned id (.sent outcome)] := by
  obtain ⟨hn, hc⟩ := (hl.steady p).client_of_lease ht rfl
  have hv := hc.drop (hl.steady p) he
  obtain ⟨front, _, -, htail, hlane, hd, -⟩ := (hl.stage p _ hn).ended (hl.steady p) hc rfl
  refine .of_client hl hm he ht .closed hn ?_ (by simp [parcels]) fun hdown => ?_
  · rintro k (⟨⟨⟩⟩ | ⟨⟨⟩⟩)
    rfl
  · rw [hm.peer_eq rfl]
    exact .trailing htail (by rw [hlane, List.append_nil]) (.idle hv (hdown.trans hd))

end

end ShortMessage.Link
