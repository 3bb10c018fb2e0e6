import ShortMessage.Proofs.Link.Queues

/-!
# How a line goes on

A line stays as it is when a step is about another one (`Stage.congr`).  The rest of the module says
what the steps of the tasks of a line make of it, one lemma for each step that can be taken there:
first those of the task that sends, then those of the task that serves, then those of the tasks
that look at messages.
-/

namespace ShortMessage.Link

open Control Transaction
open Control.Entity (outgoingLease? incomingLease?)

variable {mem mem' : Memory} {c c' s s' : Side} {n : Nat} {i j : TaskId} {sess : Session}
  {heard : List Control.Message} {front back front' : List Item}

/-! ## Lines that a step is not about -/

/-- The memories agree on a task. -/
def Agree (mem mem' : Memory) (i : TaskId) : Prop :=
  mem'.asked i = mem.asked i ∧ mem'.story i = mem.story i ∧ mem'.emitted i = mem.emitted i

theorem Side.down_congr (h : c'.lane (other n) = c.lane (other n)) : c'.down n = c.down n := by
  unfold Side.down
  rw [h]

theorem Open.congr (ho : Open mem c n i sess heard) (hasked : mem'.asked i = mem.asked i)
    (hclient : ∀ {phase mail}, Client c.entity n i phase mail → Client c'.entity n i phase mail)
    (hdown : c'.down n = c.down n) : Open mem' c' n i sess heard := by
  obtain ⟨phase, mail, hc, hl⟩ := ho.client
  exact ⟨⟨phase, mail, hclient hc, hdown ▸ hl⟩, hasked ▸ ho.asked, ho.isRequest, ho.data⟩

theorem Tail.congr (ht : Tail s n front) (hs : KeepsServer s.entity s'.entity n) :
    Tail s' n front := by
  cases ht with
  | gone hv => exact .gone (hs.2 hv)
  | unacknowledged hb => exact .unacknowledged (hs.1 hb)
  | acknowledged hb => exact .acknowledged (hs.1 hb)
  | refusing hb => exact .refusing (hs.1 hb)
  | closing hb => exact .closing (hs.1 hb)

theorem Trailing.congr (ht : Trailing mem c n front back)
    (hc : KeepsClient c.entity c'.entity n) (hdown : c'.down n = c.down n)
    (hmem : ∀ {i phase mail}, Client c.entity n i phase mail → Agree mem mem' i) :
    Trailing mem' c' n front back := by
  have hopen : ∀ {i sess heard}, Open mem c n i sess heard →
      Open mem' c' n i sess heard ∧ mem'.story i = mem.story i := by
    intro i sess heard ho
    obtain ⟨phase, mail, hclient, -⟩ := ho.client
    exact ⟨ho.congr (hmem hclient).1 hc.1 hdown, (hmem hclient).2.1⟩
  cases ht with
  | idle hv hd => exact .idle (hc.2 hv) (hdown.trans hd)
  | requested ho hst => exact .requested (hopen ho).1 ((hopen ho).2.trans hst)
  | refused ho hdec =>
    refine .refused (hopen ho).1 ?_
    rw [(hopen ho).2]
    exact hdec
  | passedOver ho hst => exact .passedOver (hopen ho).1 ((hopen ho).2.trans hst)
  | ended hclient hout hd hasked hreq hv =>
    obtain ⟨ha, hst, hem⟩ := hmem hclient
    refine .ended (hc.1 hclient) hout (hdown.trans hd) (ha.trans hasked) hreq ?_
    rw [hst, hem]
    exact hv

theorem Serves.congr {m : Relay.Message} {service : Control.Service}
    (h : Serves s i m n j service) (horigin : s'.origin j = s.origin j) :
    Serves s' i m n j service :=
  ⟨horigin.trans h.origin, h.reads, h.isRequest, h.transaction⟩

theorem Live.congr (hl : Live mem c s n)
    (hc : KeepsClient c.entity c'.entity n) (hdown : c'.down n = c.down n)
    (hmem : ∀ {i phase mail}, Client c.entity n i phase mail → Agree mem mem' i)
    (hs : KeepsServer s.entity s'.entity n) (hlane : s'.lane (own n) = s.lane (own n))
    (horigin : ∀ {j task}, s.entity.task? j = some task → s'.origin j = s.origin j) :
    Live mem' c' s' n := by
  have hopen : ∀ {i sess heard}, Open mem c n i sess heard →
      Open mem' c' n i sess heard ∧ mem'.story i = mem.story i := by
    intro i sess heard ho
    obtain ⟨phase, mail, hclient, -⟩ := ho.client
    exact ⟨ho.congr (hmem hclient).1 hc.1 hdown, (hmem hclient).2.1⟩
  cases hl with
  | looked ho hst hv hlane' hreads hreq =>
    exact .looked (hopen ho).1 ((hopen ho).2.trans hst) (hs.2 hv) (hlane.trans hlane') hreads hreq
  | accepting ho hst hb hlane' hserves =>
    exact .accepting (hopen ho).1 ((hopen ho).2.trans hst) (hs.1 hb) (hlane.trans hlane')
      (hserves.congr (horigin hb.1))
  | accepted ho hst hb hlane' hserves =>
    exact .accepted (hopen ho).1 ((hopen ho).2.trans hst) (hs.1 hb) (hlane.trans hlane')
      (hserves.congr (horigin hb.1))
  | handling ho hst hb hlane' hserves hcall =>
    exact .handling (hopen ho).1 ((hopen ho).2.trans hst) (hs.1 hb) (hlane.trans hlane')
      (hserves.congr (horigin hb.1)) hcall
  | replied ho hb hlane' hjudge hdec =>
    refine .replied (hopen ho).1 (hs.1 hb) (hlane.trans hlane') hjudge ?_
    rw [(hopen ho).2]
    exact hdec

/-- A line that a step is not about. -/
theorem Stage.congr (hst : Stage mem c s n)
    (hc : KeepsClient c.entity c'.entity n) (hdown : c'.lane (other n) = c.lane (other n))
    (hmem : ∀ {i phase mail}, Client c.entity n i phase mail → Agree mem mem' i)
    (hs : KeepsServer s.entity s'.entity n) (hlane : s'.lane (own n) = s.lane (own n))
    (horigin : ∀ {j task}, s.entity.task? j = some task → s'.origin j = s.origin j) :
    Stage mem' c' s' n := by
  have hdown' := Side.down_congr hdown
  cases hst with
  | trailing ht hlane' htr =>
    exact .trailing (ht.congr hs) (hlane.trans hlane') (htr.congr hc hdown' hmem)
  | live hl => exact .live (hl.congr hc hdown' hmem hs hlane horigin)

/-! ## The two halves of a line -/

/-- What is left of an earlier request does not matter to what has the transaction now. -/
theorem Trailing.front_congr (ht : Trailing mem c n front back) (hfront : front = [] → front' = []) :
    Trailing mem c n front' back := by
  cases ht with
  | idle hv hd => exact .idle hv hd
  | requested ho hst => exact .requested ho hst
  | refused ho hdec =>
    rw [hfront rfl]
    exact .refused ho hdec
  | passedOver ho hst =>
    rw [hfront rfl]
    exact .passedOver ho hst
  | ended hclient hout hd hasked hreq hv => exact .ended hclient hout hd hasked hreq hv

/-- What an open request can hear: an acknowledgement and one message more. -/
def audible (n : Nat) (heard : List Control.Message) : Prop :=
  heard = [] ∨ heard = [.ack (other n)] ∨ ∃ m, heard = [.ack (other n), m]

theorem audible.length {heard : List Control.Message} (h : audible n heard) : heard.length ≤ 2 := by
  rcases h with rfl | rfl | ⟨m, rfl⟩ <;> simp

/-- The party that opens a transaction has nothing there, or knows the outcome of its request, or
has an open one, which may go on as long as it listens to the same. -/
theorem Stage.client_cases (hst : Stage mem c s n) :
    (∃ front, Tail s n front ∧ s.lane (own n) = front ∧ Vacant c.entity.leaseOut? n ∧
      c.down n = []) ∨
    (∃ front i phase outcome m, Tail s n front ∧ s.lane (own n) = front ∧
      Client c.entity n i phase [] ∧ phase.outcome? = some outcome ∧ c.down n = [] ∧
      mem.asked i = some m ∧ m.isRequest = true ∧
      Verdict m (mem.story i) (mem.emitted i) outcome) ∨
    ∃ i sess heard, Open mem c n i sess heard ∧ audible n heard ∧
      ∀ {mem' c'}, Open mem' c' n i sess heard → mem'.story i = mem.story i →
        Stage mem' c' s n := by
  cases hst with
  | @trailing front back ht hlane htr =>
    cases htr with
    | idle hv hd => exact .inl ⟨front, ht, by rw [hlane, List.append_nil], hv, hd⟩
    | ended hclient hout hd hasked hreq hv =>
      exact .inr (.inl ⟨front, _, _, _, _, ht, by rw [hlane, List.append_nil], hclient, hout, hd,
        hasked, hreq, hv⟩)
    | requested ho hst =>
      exact .inr (.inr ⟨_, _, _, ho, .inl rfl, fun ho' hs' =>
        .trailing ht hlane (.requested ho' (hs'.trans hst))⟩)
    | refused ho hdec =>
      exact .inr (.inr ⟨_, _, _, ho, .inr (.inr ⟨_, rfl⟩), fun ho' hs' =>
        .trailing ht hlane (.refused ho' (hs'.symm ▸ hdec))⟩)
    | passedOver ho hst =>
      exact .inr (.inr ⟨_, _, _, ho, .inr (.inl rfl), fun ho' hs' =>
        .trailing ht hlane (.passedOver ho' (hs'.trans hst))⟩)
  | live hl =>
    refine .inr (.inr ?_)
    cases hl with
    | looked ho hst hv hlane hreads hreq =>
      exact ⟨_, _, _, ho, .inl rfl,
        fun ho' hs' => .live (.looked ho' (hs'.trans hst) hv hlane hreads hreq)⟩
    | accepting ho hst hb hlane hserves =>
      exact ⟨_, _, _, ho, .inr (.inl rfl),
        fun ho' hs' => .live (.accepting ho' (hs'.trans hst) hb hlane hserves)⟩
    | accepted ho hst hb hlane hserves =>
      exact ⟨_, _, _, ho, .inr (.inl rfl),
        fun ho' hs' => .live (.accepted ho' (hs'.trans hst) hb hlane hserves)⟩
    | handling ho hst hb hlane hserves hcall =>
      exact ⟨_, _, _, ho, .inr (.inl rfl),
        fun ho' hs' => .live (.handling ho' (hs'.trans hst) hb hlane hserves hcall)⟩
    | replied ho hb hlane hjudge hdec =>
      exact ⟨_, _, _, ho, .inr (.inr ⟨_, rfl⟩),
        fun ho' hs' => .live (.replied ho' hb hlane hjudge (hs'.symm ▸ hdec))⟩

/-! ## The task that sends -/

section

variable {phase phase' : Sending} {mail mail' : List Control.Message} {m : Control.Message}
  {outcome : Outcome} {msg : Relay.Message}

/-- An open request is the task of its transaction, and it listens. -/
theorem Open.of_client (ho : Open mem c n i sess heard) (hc : Steady c.entity)
    (hclient : Client c.entity n j phase mail) :
    i = j ∧ Listening sess heard phase (mail ++ c.down n) := by
  obtain ⟨phase', mail', hclient', hl⟩ := ho.client
  obtain ⟨rfl, rfl, rfl⟩ := hc.client_eq hclient hclient'
  exact ⟨rfl, hl⟩

/-- An open request goes on to listen to the same. -/
theorem Open.listen (ho : Open mem c n i sess heard) (hasked : mem'.asked i = mem.asked i)
    (hclient : Client c'.entity n i phase mail) (hl : Listening sess heard phase (mail ++ c'.down n)) :
    Open mem' c' n i sess heard :=
  ⟨⟨phase, mail, hclient, hl⟩, hasked ▸ ho.asked, ho.isRequest, ho.data⟩

/-- The other party says something. -/
theorem Open.hear (ho : Open mem c n i sess heard) (hasked : mem'.asked i = mem.asked i)
    (hc : c'.entity = c.entity) (hdown : c'.down n = c.down n ++ [m]) :
    Open mem' c' n i sess (heard ++ [m]) := by
  obtain ⟨phase, mail, hclient, hl⟩ := ho.client
  refine ⟨⟨phase, mail, hc ▸ hclient, ?_⟩, hasked ▸ ho.asked, ho.isRequest, ho.data⟩
  rw [hdown, ← List.append_assoc]
  cases hl with
  | delivering => exact .delivering
  | awaiting hheard => exact .awaiting (by rw [hheard, List.cons_append])

/-- A request takes a vacant transaction, and its data is put behind what is left there. -/
theorem Stage.opened (hst : Stage mem c s n) (hv : Vacant c.entity.leaseOut? n)
    (ho : c.down n = [] → Open mem' c' n i sess []) (hstory : mem'.story i = [])
    (hs : KeepsServer s.entity s'.entity n)
    (hlane : s'.lane (own n) = s.lane (own n) ++ [.message i sess.data]) : Stage mem' c' s' n := by
  rcases hst.client_cases with ⟨front, ht, hfront, -, hd⟩ | ⟨_, _, _, _, _, _, _, hclient, _⟩ |
    ⟨_, _, _, ho', _⟩
  · exact .trailing (ht.congr hs) (hfront ▸ hlane) (.requested (ho hd) hstory)
  · exact absurd hv hclient.2.not_vacant
  · obtain ⟨_, _, hclient, -⟩ := ho'.client
    exact absurd hv hclient.2.not_vacant

/-- A request that cannot be written takes a vacant transaction and has an outcome at once. -/
theorem Stage.unwritable (hst : Stage mem c s n) (hv : Vacant c.entity.leaseOut? n)
    (hclient : Client c'.entity n i phase []) (hout : phase.outcome? = some outcome)
    (hdown : c'.down n = c.down n) (hasked : mem'.asked i = some msg) (hreq : msg.isRequest = true)
    (hverdict : Verdict msg (mem'.story i) (mem'.emitted i) outcome)
    (hs : KeepsServer s.entity s'.entity n) (hlane : s'.lane (own n) = s.lane (own n)) :
    Stage mem' c' s' n := by
  rcases hst.client_cases with ⟨front, ht, hfront, -, hd⟩ | ⟨_, _, _, _, _, _, _, hclient, _⟩ |
    ⟨_, _, _, ho', _⟩
  · exact .trailing (ht.congr hs) (by rw [hlane, hfront, List.append_nil])
      (.ended hclient hout (hdown.trans hd) hasked hreq hverdict)
  · exact absurd hv hclient.2.not_vacant
  · obtain ⟨_, _, hclient, -⟩ := ho'.client
    exact absurd hv hclient.2.not_vacant

/-- The data is with the other party: an open request waits for what it was waiting for. -/
theorem Stage.transmitted (hst : Stage mem c s n) (hc : Steady c.entity) {handover : Handover}
    {t : Session} (hclient : Client c.entity n i (.delivering t handover) mail)
    {handover' : Handover} (hclient' : Client c'.entity n i (.delivering t handover') mail)
    (hdown : c'.down n = c.down n) (hasked : mem'.asked i = mem.asked i)
    (hstory : mem'.story i = mem.story i) : Stage mem' c' s n := by
  rcases hst.client_cases with ⟨_, _, _, hv, _⟩ | ⟨_, _, _, _, _, _, _, hended, hout, _⟩ |
    ⟨_, _, _, ho, _, hgo⟩
  · exact absurd hv hclient.2.not_vacant
  · obtain ⟨-, rfl, -⟩ := hc.client_eq hclient hended
    cases hout
  · obtain ⟨rfl, hl⟩ := ho.of_client hc hclient
    cases hl
    refine hgo (ho.listen hasked hclient' ?_) hstory
    rw [hdown]
    exact .delivering

/-- The first message that a request takes is the acknowledgement. -/
theorem Stage.delivered (hst : Stage mem c s n) (hc : Steady c.entity) {handover : Handover}
    {t : Session} (hclient : Client c.entity n i (.delivering t handover) (m :: mail)) :
    m = .ack (other n) ∧ t.message.isRequest = true ∧ ∀ {mem' c' deadline},
      Client c'.entity n i (.awaitingAnswer t deadline) mail → c'.down n = c.down n →
      mem'.asked i = mem.asked i → mem'.story i = mem.story i → Stage mem' c' s n := by
  rcases hst.client_cases with ⟨_, _, _, hv, _⟩ | ⟨_, _, _, _, _, _, _, hended, hout, _⟩ |
    ⟨_, _, _, ho, haudible, hgo⟩
  · exact absurd hv hclient.2.not_vacant
  · obtain ⟨-, rfl, -⟩ := hc.client_eq hclient hended
    cases hout
  · obtain ⟨rfl, hl⟩ := ho.of_client hc hclient
    cases hl
    have hm : m = .ack (other n) := by
      rcases haudible with h | h | ⟨_, h⟩
      · cases h
      · exact (List.cons.inj h).1
      · exact (List.cons.inj h).1
    refine ⟨hm, ho.isRequest, fun hclient' hdown hasked hstory => ?_⟩
    refine hgo (ho.listen hasked hclient' ?_) hstory
    rw [hdown]
    exact .awaiting rfl

/-- What a request takes after that ends it: the answer, which it acknowledges, or an error. -/
theorem Stage.took (hst : Stage mem c s n) (hc : Steady c.entity) {deadline : Nat} {t : Session}
    (hclient : Client c.entity n i (.awaitingAnswer t deadline) (m :: mail)) :
    mail = [] ∧ c.down n = [] ∧ mem.asked i = some t.message ∧ t.message.isRequest = true ∧
      (∃ octets, t.message.encode = .ok octets ∧ t.data = .data (own n) octets) ∧
      ((∃ cause, m = .error (other n) cause ∧
          Decision t.message (mem.story i) (.error (.control cause)) ∧
          Tail s n [] ∧ s.lane (own n) = []) ∨
        ∃ octets reply j lease handover, m = .data (other n) octets ∧
          judgeAnswer t.message octets = .ok reply ∧
          Decision t.message (mem.story i) (.ok (some reply)) ∧ s.lane (own n) = [] ∧
          Server s.entity n j
            (.serving (.delivering lease (.data (other n) octets) handover)) []) := by
  have hopen : ∀ {i' sess heard}, Open mem c n i' sess heard →
      i' = i ∧ sess = t ∧ ∃ a, heard = a :: m :: (mail ++ c.down n) := by
    intro i' sess heard ho
    obtain ⟨rfl, hl⟩ := ho.of_client hc hclient
    cases hl with
    | awaiting h => exact ⟨rfl, rfl, _, h⟩
  cases hst with
  | trailing ht hlane htr =>
    cases htr with
    | idle hv hd => exact absurd hv hclient.2.not_vacant
    | ended hended hout =>
      obtain ⟨-, rfl, -⟩ := hc.client_eq hclient hended
      cases hout
    | requested ho | passedOver ho =>
      obtain ⟨-, -, _, h⟩ := hopen ho
      cases h
    | refused ho hdec =>
      obtain ⟨rfl, rfl, _, h⟩ := hopen ho
      obtain ⟨-, rfl, hrest⟩ : _ ∧ m = _ ∧ mail ++ c.down n = [] := by simpa using h.symm
      obtain ⟨rfl, hd⟩ := List.append_eq_nil_iff.1 hrest
      exact ⟨rfl, hd, ho.asked, ho.isRequest, ho.data, .inl ⟨_, rfl, hdec, ht, hlane⟩⟩
  | live hl =>
    cases hl with
    | looked ho | accepting ho | accepted ho | handling ho =>
      obtain ⟨-, -, _, h⟩ := hopen ho
      cases h
    | replied ho hb hlane hjudge hdec =>
      obtain ⟨rfl, rfl, _, h⟩ := hopen ho
      obtain ⟨-, rfl, hrest⟩ : _ ∧ m = _ ∧ mail ++ c.down n = [] := by simpa using h.symm
      obtain ⟨rfl, hd⟩ := List.append_eq_nil_iff.1 hrest
      exact ⟨rfl, hd, ho.asked, ho.isRequest, ho.data,
        .inr ⟨_, _, _, _, _, rfl, hjudge, hdec, hlane, hb⟩⟩

/-- A request that knows its outcome. -/
theorem Stage.ended (hst : Stage mem c s n) (hc : Steady c.entity)
    (hclient : Client c.entity n i phase mail) (hout : phase.outcome? = some outcome) :
    ∃ front m, mail = [] ∧ Tail s n front ∧ s.lane (own n) = front ∧ c.down n = [] ∧
      mem.asked i = some m ∧ m.isRequest = true ∧
      Verdict m (mem.story i) (mem.emitted i) outcome := by
  rcases hst.client_cases with ⟨_, _, _, hv, _⟩ |
    ⟨front, _, _, _, m, ht, hlane, hended, hout', hd, hasked, hreq, hverdict⟩ |
    ⟨_, _, _, ho, _⟩
  · exact absurd hv hclient.2.not_vacant
  · obtain ⟨rfl, rfl, rfl⟩ := hc.client_eq hclient hended
    rw [hout] at hout'
    cases hout'
    exact ⟨front, m, rfl, ht, hlane, hd, hasked, hreq, hverdict⟩
  · obtain ⟨rfl, hl⟩ := ho.of_client hc hclient
    cases hl <;> cases hout

end

/-! ## The task that serves -/

section

variable {task : Task} {box : List Control.Message} {service : Control.Service}

theorem Server.not_vacant {e : Entity} (hb : Server e n j task box) : ¬Vacant e.leaseIn? n :=
  hb.2.not_vacant

/-- Which requests a task may be serving while it accepts one, or has accepted one. -/
theorem Stage.accepting (hst : Stage mem c s n) (hs : Steady s.entity)
    (hb : Server s.entity n j (.receiving (.accepting service)) box) :
    ∃ i sess, Open mem c n i sess [.ack (other n)] ∧ mem.story i = [] ∧ box = [] ∧
      s.lane (own n) = [] ∧ Serves s i sess.message n j service := by
  cases hst with
  | trailing ht =>
    cases ht with
    | gone hv => exact absurd hv hb.not_vacant
    | unacknowledged h | acknowledged h | refusing h | closing h => cases (hs.server_eq hb h).2.1
  | live hl =>
    cases hl with
    | looked _ _ hv => exact absurd hv hb.not_vacant
    | accepting ho hst h hlane hserves =>
      obtain ⟨rfl, heq, rfl⟩ := hs.server_eq hb h
      cases heq
      exact ⟨_, _, ho, hst, rfl, hlane, hserves⟩
    | accepted _ _ h | handling _ _ h | replied _ h => cases (hs.server_eq hb h).2.1

theorem Stage.accepted (hst : Stage mem c s n) (hs : Steady s.entity)
    (hb : Server s.entity n j (.serving (.accepted service)) box) :
    ∃ i sess, Open mem c n i sess [.ack (other n)] ∧ mem.story i = [] ∧ box = [] ∧
      s.lane (own n) = [] ∧ Serves s i sess.message n j service := by
  cases hst with
  | trailing ht =>
    cases ht with
    | gone hv => exact absurd hv hb.not_vacant
    | unacknowledged h | acknowledged h | refusing h | closing h => cases (hs.server_eq hb h).2.1
  | live hl =>
    cases hl with
    | looked _ _ hv => exact absurd hv hb.not_vacant
    | accepted ho hst h hlane hserves =>
      obtain ⟨rfl, heq, rfl⟩ := hs.server_eq hb h
      cases heq
      exact ⟨_, _, ho, hst, rfl, hlane, hserves⟩
    | accepting _ _ h | handling _ _ h | replied _ h => cases (hs.server_eq hb h).2.1

/-- The request that the application is asked about. -/
theorem Stage.handling (hst : Stage mem c s n) (hs : Steady s.entity)
    (hb : Server s.entity n j (.serving (.handling service)) box) :
    ∃ i sess call, Open mem c n i sess [.ack (other n)] ∧ mem.story i = [.called j call] ∧
      box = [] ∧ s.lane (own n) = [] ∧ Serves s i sess.message n j service ∧
      Service.call? service.request = some call := by
  cases hst with
  | trailing ht =>
    cases ht with
    | gone hv => exact absurd hv hb.not_vacant
    | unacknowledged h | acknowledged h | refusing h | closing h => cases (hs.server_eq hb h).2.1
  | live hl =>
    cases hl with
    | looked _ _ hv => exact absurd hv hb.not_vacant
    | handling ho hst h hlane hserves hcall =>
      obtain ⟨rfl, heq, rfl⟩ := hs.server_eq hb h
      cases heq
      exact ⟨_, _, _, ho, hst, rfl, hlane, hserves, hcall⟩
    | accepting _ _ h | accepted _ _ h | replied _ h => cases (hs.server_eq hb h).2.1

/-- Has a task nothing more to say, given what waits for it? -/
def leaving : Task → List Control.Message → Bool
  | .serving (.refusing _), _ | .serving (.closing _), _ => true
  | .serving (.delivering _ _ _), box => !box.isEmpty
  | _, _ => false

/-- Every request that was accepted is acknowledged. -/
theorem Stage.not_withdrawing (hst : Stage mem c s n) (hs : Steady s.entity) {lease : Lease}
    {failure : Failure} : ¬Server s.entity n j (.receiving (.withdrawing lease failure)) box := by
  intro hb
  cases hst with
  | trailing ht =>
    cases ht with
    | gone hv => exact absurd hv hb.not_vacant
    | unacknowledged h | acknowledged h | refusing h | closing h => cases (hs.server_eq hb h).2.1
  | live hl =>
    cases hl with
    | looked _ _ hv => exact absurd hv hb.not_vacant
    | accepting _ _ h | accepted _ _ h | handling _ _ h | replied _ h =>
      cases (hs.server_eq hb h).2.1

/-- How many messages can wait for a task that has nothing more to say. -/
def awaited : Task → Nat
  | .serving (.delivering _ _ _) => 1
  | _ => 0

/-- A task that has nothing more to say belongs to a request that is over. -/
theorem Stage.leaving (hst : Stage mem c s n) (hs : Steady s.entity)
    (hb : Server s.entity n j task box) (htask : leaving task box = true) :
    Trailing mem c n [] (s.lane (own n)) ∧ box.length ≤ awaited task := by
  cases hst with
  | trailing ht hlane htr =>
    cases ht with
    | gone hv => exact absurd hv hb.not_vacant
    | unacknowledged h =>
      obtain ⟨rfl, rfl, rfl⟩ := hs.server_eq hb h
      cases htask
    | acknowledged h | refusing h | closing h =>
      obtain ⟨-, rfl, rfl⟩ := hs.server_eq hb h
      rw [hlane, List.nil_append]
      exact ⟨htr, Nat.le_refl _⟩
  | live hl =>
    cases hl with
    | looked _ _ hv => exact absurd hv hb.not_vacant
    | accepting _ _ h | accepted _ _ h | handling _ _ h | replied _ h =>
      obtain ⟨rfl, rfl, rfl⟩ := hs.server_eq hb h
      cases htask

/-- The answer is with the other party: it waits for what it was waiting for. -/
theorem Stage.replyTransmitted (hst : Stage mem c s n) (hs : Steady s.entity) {lease : Lease}
    {data : Control.Message} {handover handover' : Handover}
    (hb : Server s.entity n j (.serving (.delivering lease data handover)) box)
    (hb' : Server s'.entity n j (.serving (.delivering lease data handover')) box)
    (hlane : s'.lane (own n) = s.lane (own n)) : Stage mem c s' n := by
  cases hst with
  | trailing ht hlane' htr =>
    have hlane' := hlane.trans hlane'
    cases ht with
    | gone hv => exact absurd hv hb.not_vacant
    | unacknowledged h =>
      obtain ⟨rfl, -, rfl⟩ := hs.server_eq hb h
      exact .trailing (.unacknowledged hb') hlane' htr
    | acknowledged h =>
      obtain ⟨rfl, -, rfl⟩ := hs.server_eq hb h
      exact .trailing (.acknowledged hb') hlane' htr
    | refusing h | closing h => cases (hs.server_eq hb h).2.1
  | live hl =>
    cases hl with
    | looked _ _ hv => exact absurd hv hb.not_vacant
    | accepting _ _ h | accepted _ _ h | handling _ _ h => cases (hs.server_eq hb h).2.1
    | replied ho h hlane' hjudge hdec =>
      obtain ⟨rfl, heq, rfl⟩ := hs.server_eq hb h
      cases heq
      exact .live (.replied ho hb' (hlane.trans hlane') hjudge hdec)

end

/-! ## The tasks that look at messages -/

section

variable {item : Item} {rest : List Item}

/-- What is the oldest on the line: the acknowledgement of an earlier answer, or the data of a
request, or the request itself. -/
theorem Stage.lane_cases (hst : Stage mem c s n) (hlane : s.lane (own n) = item :: rest) :
    (∃ k j lease data handover, item = .message k (.ack (own n)) ∧
      Server s.entity n j (.serving (.delivering lease data handover)) [] ∧
      Trailing mem c n [item] rest) ∨
    (∃ i sess, item = .message i sess.data ∧ rest = [] ∧ Tail s n [] ∧ Open mem c n i sess [] ∧
      mem.story i = []) ∨
    ∃ i sess request, item = .request i (own n) request ∧ rest = [] ∧ Open mem c n i sess [] ∧
      mem.story i = [] ∧ Vacant s.entity.leaseIn? n ∧ Reads sess.message request ∧
      request.isRequest = true := by
  cases hst with
  | @trailing front back ht hlane' htr =>
    have htail : front = [] → Tail s n [] →
        ∃ i sess, item = .message i sess.data ∧ rest = [] ∧ Tail s n [] ∧ Open mem c n i sess [] ∧
          mem.story i = [] := by
      rintro rfl ht
      rw [hlane, List.nil_append] at hlane'
      subst hlane'
      cases htr with
      | requested ho hst => exact ⟨_, _, rfl, rfl, ht, ho, hst⟩
    cases ht with
    | unacknowledged hb =>
      rw [hlane] at hlane'
      obtain ⟨rfl, rfl⟩ := List.cons.inj hlane'
      exact .inl ⟨_, _, _, _, _, rfl, hb, htr⟩
    | gone hv => exact .inr (.inl (htail rfl (.gone hv)))
    | acknowledged hb => exact .inr (.inl (htail rfl (.acknowledged hb)))
    | refusing hb => exact .inr (.inl (htail rfl (.refusing hb)))
    | closing hb => exact .inr (.inl (htail rfl (.closing hb)))
  | live hl =>
    cases hl with
    | looked ho hst hv hlane' hreads hreq =>
      rw [hlane] at hlane'
      obtain ⟨rfl, rfl⟩ := List.cons.inj hlane'
      exact .inr (.inr ⟨_, _, _, rfl, rfl, ho, hst, hv, hreads, hreq⟩)
    | accepting _ _ _ h | accepted _ _ _ h | handling _ _ _ h | replied _ _ h =>
      rw [hlane] at h
      cases h

/-- What comes back on a line is for an open request, which has room for it. -/
theorem Stage.down_cases (hst : Stage mem c s n) {m : Control.Message}
    {rest : List Control.Message} (hdown : c.down n = m :: rest) :
    ∃ i phase mail, Client c.entity n i phase mail ∧ mail.length < mailboxDepth ∧
      ∀ {mem' c'}, Client c'.entity n i phase (mail ++ [m]) → c'.down n = rest →
        mem'.asked i = mem.asked i → mem'.story i = mem.story i → Stage mem' c' s n := by
  rcases hst.client_cases with ⟨_, _, _, _, hd⟩ | ⟨_, _, _, _, _, _, _, _, _, hd, _⟩ |
    ⟨i, sess, heard, ho, haudible, hgo⟩
  · rw [hdown] at hd
    cases hd
  · rw [hdown] at hd
    cases hd
  · obtain ⟨phase, mail, hclient, hl⟩ := ho.client
    have hroom : (mail ++ c.down n).length ≤ 2 := by
      refine Nat.le_trans ?_ haudible.length
      cases hl with
      | delivering => exact Nat.le_refl _
      | awaiting h => rw [h]; exact Nat.le_succ _
    rw [List.length_append] at hroom
    refine ⟨i, phase, mail, hclient, Nat.lt_of_le_of_lt (m := 2) (by omega) (by decide),
      fun hclient' hd hasked hstory => hgo (ho.listen hasked hclient' ?_) hstory⟩
    rw [hd, List.append_assoc, List.singleton_append, ← hdown]
    exact hl

end

end ShortMessage.Link
