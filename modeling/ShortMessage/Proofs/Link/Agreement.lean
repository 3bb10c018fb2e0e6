import ShortMessage.Proofs.Link.Lasting

/-!
# The two parties agree

Whatever a party returns for a request is what the application of the other one has decided for that
very request, unless nothing of it was ever emitted.  Every question to an application stems from
one request, and no request leads to two of them (`agreed_of_run`).
-/

namespace ShortMessage.Link

open Control Transaction

/-- The task of the other party that an entry is about. -/
def Entry.task : Entry → TaskId
  | .called j _ | .decided j _ _ | .passedOver j => j

/-- Is the application asked? -/
def Entry.isCall : Entry → Bool
  | .called _ _ => true
  | _ => false

/-- What two parties have done fits together. -/
structure Agreed (h : List Passage) : Prop where
  /-- What is returned for a request is what was decided for it. -/
  returned : ∀ {p i s outcome}, Returned (steps h p) i s (.sent outcome) →
    ∃ m, message? (steps h p) i = some m ∧ m.isRequest = true ∧
      Verdict m (story h p i) (emissions (steps h p) i) outcome
  /-- The application of a party is asked for one request of the other party. -/
  called : ∀ {p tr j call}, tr ∈ h → tr.move.1 = p.peer → .called j call ∈ tr.events →
    ∃ i m request, entryIn? p i tr = some (.called j call) ∧ message? (steps h p) i = some m ∧
      Reads m request ∧ Service.call? request = some call ∧
      ∀ i', .called j call ∈ story h p i' ↔ i' = i
  /-- No request leads to two questions. -/
  once : ∀ p i, ((story h p i).filter Entry.isCall).length ≤ 1

variable {h : List Passage} {l l' : State} {p q : Party} {move : Move Input}
  {events : List (Event Control.Message Result)} {cause : Option TaskId} {inbound : List Parcel}
  {i j : TaskId} {call : Service.Call} {outcome : Outcome}

/-! ## What one step says -/

section

variable (hl : Lines h l) (hm : Moved l l' p move events cause inbound)

include hl hm

/-- A request that is returned comes to what has become of it at the other party. -/
theorem Moved.returned (hret : .returned i (.sent outcome) ∈ events) :
    ∃ m, message? (steps h p) i = some m ∧ m.isRequest = true ∧
      Verdict m (story h p i) (emissions (steps h p) i) outcome ∧
      emissions (steps (h ++ [⟨l, (p, move), events, l'⟩]) p) i = emissions (steps h p) i := by
  rw [steps_mover, emissions_snoc]
  obtain ⟨m, ht, -, rfl, -, hem⟩ | ⟨lease, ht, -, hem⟩ := hm.rule.sent hret
  · obtain ⟨hasked, hreq, hstory, hemitted⟩ := hl.opening ht
    exact ⟨m, hasked, hreq, .congested hstory hemitted, by rw [hem, List.append_nil]⟩
  · obtain ⟨hn, hc⟩ := (hl.steady p).client_of_lease ht rfl
    obtain ⟨_, m, -, -, -, -, hasked, hreq, hverdict⟩ :=
      (hl.stage p _ hn).ended (hl.steady p) hc rfl
    exact ⟨m, hasked, hreq, hverdict, by rw [hem, List.append_nil]⟩

/-- An application is only asked for a request that the other party has sent. -/
theorem Moved.called (hcall : .called j call ∈ events) :
    ∃ i m request, entryIn? p.peer i ⟨l, (p, move), events, l'⟩ = some (.called j call) ∧
      message? (steps h p.peer) i = some m ∧ Reads m request ∧
      Service.call? request = some call := by
  have hrule := hm.rule
  generalize (l' p).entity = e at hrule
  cases hrule with
  | start input | elapsed duration => cases hcall
  | handedOver ht => simp at hcall
  | act ht ha =>
    cases ha with
    | delivered _ hf | took _ hf | tookLate _ hf => cases hf <;> simp [Entity.saying] at hcall
    | @called service call' hsome =>
      cases List.mem_singleton.1 hcall
      obtain ⟨hn, hb⟩ := (hl.steady p).server_of_lease ht rfl
      obtain ⟨i, sess, ho, -, -, -, hserves⟩ := (hl.other_stage hn).accepted (hl.steady p) hb
      refine ⟨i, sess.message, service.request, ?_, ho.asked, hserves.reads, hsome⟩
      rw [entryIn?_mover]
      exact if_pos hserves.origin
    | _ => simp at hcall

/-- Nothing has become of a request before the application is asked. -/
theorem Moved.story_of_called
    (he : entryIn? p.peer i ⟨l, (p, move), events, l'⟩ = some (.called j call)) :
    story h p.peer i = [] := by
  obtain ⟨k, -, horigin, hcases⟩ := hm.entry_cases he
  rcases hcases with ⟨service, _, ht, -⟩ | ⟨_, _, _, -, -, heq⟩ | ⟨_, _, -, -, -, -, heq⟩
  · obtain ⟨hn, hb⟩ := (hl.steady p).server_of_lease ht rfl
    obtain ⟨i', sess, -, hstory, -, -, hserves⟩ := (hl.other_stage hn).accepted (hl.steady p) hb
    rw [hserves.origin] at horigin
    cases horigin
    exact hstory
  · cases heq
  · cases heq

end

/-! ## What a history says -/

/-- All that is known of a history that leads to `l`. -/
structure Account (h : List Passage) (l : State) : Prop where
  lines : Lines h l
  ended : ∀ {p i s outcome}, Returned (steps h p) i s (.sent outcome) →
    (l p).entity.task? i = none ∧ i < (l p).entity.started ∧
      ∃ m, message? (steps h p) i = some m ∧ m.isRequest = true ∧
        Verdict m (story h p i) (emissions (steps h p) i) outcome
  stems : ∀ {p i entry}, entry ∈ story h p i → (l p.peer).origin entry.task = some i ∧
    entry.task < (l p.peer).entity.started
  called : ∀ {p tr j call}, tr ∈ h → tr.move.1 = p.peer → .called j call ∈ tr.events →
    ∃ i m request, entryIn? p i tr = some (.called j call) ∧ message? (steps h p) i = some m ∧
      Reads m request ∧ Service.call? request = some call
  once : ∀ p i, ((story h p i).filter Entry.isCall).length ≤ 1

theorem Account.agreed (ha : Account h l) : Agreed h where
  returned hret := (ha.ended hret).2.2
  once := ha.once
  called htr hp hcall := by
    obtain ⟨i, m, request, he, hasked, hreads, hsome⟩ := ha.called htr hp hcall
    have hmem := List.mem_filterMap.2 ⟨_, htr, he⟩
    refine ⟨i, m, request, he, hasked, hreads, hsome, fun i' => ⟨fun hi' => ?_, ?_⟩⟩
    · have := (ha.stems hi').1
      rw [(ha.stems hmem).1] at this
      exact (Option.some.inj this).symm
    · rintro rfl
      exact hmem

section

variable (ha : Account h l) (hm : Moved l l' p move events cause inbound)

include hm

theorem Moved.origin_eq (hlt : j < (l q).entity.started) : (l' q).origin j = (l q).origin j := by
  rcases Party.eq_or p q with rfl | rfl
  · rw [hm.mover]
    exact if_neg (Nat.ne_of_lt hlt)
  · exact hm.origin_peer

include ha

/-- Whatever was returned before stays as it was, since the task is gone. -/
theorem Account.ended_before {s : Entity} (hret : Returned (steps h q) i s (.sent outcome)) :
    (l' q).entity.task? i = none ∧ i < (l' q).entity.started ∧
      ∃ m, message? (steps (h ++ [⟨l, (p, move), events, l'⟩]) q) i = some m ∧
        m.isRequest = true ∧ Verdict m (story (h ++ [⟨l, (p, move), events, l'⟩]) q i)
          (emissions (steps (h ++ [⟨l, (p, move), events, l'⟩]) q) i) outcome := by
  obtain ⟨hgone, hlt, m, hasked, hreq, hverdict⟩ := ha.ended hret
  have hnone : entryIn? q i ⟨l, (p, move), events, l'⟩ = none := by
    refine hm.entry_eq_none_of ha.lines fun n phase mail hc => ?_
    have := hc.1
    rw [hgone] at this
    cases this
  refine ⟨?_, Nat.lt_of_lt_of_le hlt (hm.started_le q), m, hm.asked_of_some hasked, hreq, ?_⟩
  · rcases Party.eq_or p q with rfl | rfl
    · exact hm.rule.absent_after (ha.lines.steady q).orderly hgone hlt
    · rw [hm.entity_peer]
      exact hgone
  · rw [story_snoc_of_none hnone]
    rcases Party.eq_or p q with rfl | rfl
    · rw [hm.emitted_of_ne (hm.rule.absent hgone).1]
      exact hverdict
    · rw [steps_peer]
      exact hverdict

theorem Account.ended_step {s : Entity}
    (hret : Returned (steps (h ++ [⟨l, (p, move), events, l'⟩]) q) i s (.sent outcome)) :
    (l' q).entity.task? i = none ∧ i < (l' q).entity.started ∧
      ∃ m, message? (steps (h ++ [⟨l, (p, move), events, l'⟩]) q) i = some m ∧
        m.isRequest = true ∧ Verdict m (story (h ++ [⟨l, (p, move), events, l'⟩]) q i)
          (emissions (steps (h ++ [⟨l, (p, move), events, l'⟩]) q) i) outcome := by
  rcases Party.eq_or p q with rfl | rfl
  · have hret' := hret
    rw [steps_mover] at hret'
    obtain hold | ⟨-, hnew⟩ := returned_snoc.1 hret'
    · exact ha.ended_before hm hold
    · obtain ⟨m, hasked, hreq, hverdict, hemitted⟩ := hm.returned ha.lines hnew
      have ho := (ha.lines.steady q).orderly
      obtain ⟨task, ht⟩ := hm.rule.exists_task (hm.rule.task_of_mem hnew)
      refine ⟨hm.rule.gone hnew, Nat.lt_of_lt_of_le (ho.lt_started ht) hm.rule.started_le, m,
        hm.asked_of_some hasked, hreq, ?_⟩
      rw [story_mover, hemitted]
      exact hverdict
  · have hret' := hret
    rw [steps_peer] at hret'
    exact ha.ended_before hm hret'

theorem Account.stems_step {entry : Entry}
    (hentry : entry ∈ story (h ++ [⟨l, (p, move), events, l'⟩]) q i) :
    (l' q.peer).origin entry.task = some i ∧ entry.task < (l' q.peer).entity.started := by
  have hold (horigin : (l q.peer).origin entry.task = some i)
      (hlt : entry.task < (l q.peer).entity.started) :
      (l' q.peer).origin entry.task = some i ∧ entry.task < (l' q.peer).entity.started :=
    ⟨(hm.origin_eq hlt).trans horigin, Nat.lt_of_lt_of_le hlt (hm.started_le q.peer)⟩
  rw [story_snoc] at hentry
  rcases List.mem_append.1 hentry with hentry | hentry
  · exact hold (ha.stems hentry).1 (ha.stems hentry).2
  · have hentry := Option.mem_toList.1 hentry
    rcases Party.eq_or p q with rfl | rfl
    · rw [entryIn?, if_neg (Party.peer_ne q).symm] at hentry
      cases hentry
    · rw [Party.peer_peer] at hold ⊢
      obtain ⟨j, hj, horigin, hcases⟩ := hm.entry_cases hentry
      have htask : entry.task = j := by
        rcases hcases with ⟨_, _, -, -, -, rfl⟩ | ⟨_, _, _, -, -, rfl⟩ | ⟨_, _, -, -, -, -, rfl⟩ <;> rfl
      obtain ⟨task, ht⟩ := hm.rule.exists_task hj
      rw [htask] at hold ⊢
      exact hold horigin ((ha.lines.steady p).orderly.lt_started ht)

theorem Account.called_step {tr : Passage} (htr : tr ∈ h ++ [⟨l, (p, move), events, l'⟩])
    (hp : tr.move.1 = q.peer) (hcall : .called j call ∈ tr.events) :
    ∃ i m request, entryIn? q i tr = some (.called j call) ∧
      message? (steps (h ++ [⟨l, (p, move), events, l'⟩]) q) i = some m ∧ Reads m request ∧
      Service.call? request = some call := by
  rcases List.mem_append.1 htr with htr | htr
  · obtain ⟨i, m, request, he, hasked, hreads, hsome⟩ := ha.called htr hp hcall
    exact ⟨i, m, request, he, hm.asked_of_some hasked, hreads, hsome⟩
  · obtain rfl := List.mem_singleton.1 htr
    obtain rfl : p = q.peer := hp
    obtain ⟨i, m, request, he, hasked, hreads, hsome⟩ := hm.called ha.lines hcall
    rw [Party.peer_peer] at he hasked
    exact ⟨i, m, request, he, hm.asked_of_some hasked, hreads, hsome⟩

/-- No request is put to an application twice. -/
theorem Account.once_step :
    ((story (h ++ [⟨l, (p, move), events, l'⟩]) q i).filter Entry.isCall).length ≤ 1 := by
  rw [story_snoc, List.filter_append]
  cases he : entryIn? q i ⟨l, (p, move), events, l'⟩ with
  | none => simpa using ha.once q i
  | some entry =>
    cases entry with
    | decided | passedOver => simpa [Entry.isCall] using ha.once q i
    | called j call =>
      rcases Party.eq_or p q with rfl | rfl
      · rw [entryIn?, if_neg (Party.peer_ne q).symm] at he
        cases he
      · rw [hm.story_of_called ha.lines he]
        exact Nat.le_refl _

end

theorem account_of_run {config : Party → Config} (hrun : Run step? (ofConfigs config) h l) :
    Account h l := by
  induction hrun with
  | rest => exact ⟨lines_ofConfigs config, by rintro _ _ _ _ ⟨_, ⟨⟩, -⟩, by rintro _ _ _ ⟨⟩,
      by rintro _ _ _ _ ⟨⟩, fun _ _ => Nat.zero_le _⟩
  | step _ hs ih =>
    obtain ⟨_, _, hm⟩ := step?_eq_moved hs
    exact ⟨ih.lines.step hm, ih.ended_step hm, ih.stems_step hm, ih.called_step hm,
      fun _ _ => ih.once_step hm⟩

/-- What two parties have done always fits together, whatever they were asked to send, in whichever
order their tasks run and whatever their applications say. -/
theorem agreed_of_run {config : Party → Config} (hrun : Run step? (ofConfigs config) h l) :
    Agreed h :=
  (account_of_run hrun).agreed

/-- A notice of the first party on the transaction `n` is answered, up to the point where the task
that serves it has to notice that the answer was acknowledged.  Every notice before it was on an
earlier transaction. -/
def exchange (now : Timestamp) (n : Nat) : List Deed :=
  let reference := UInt8.ofNat n
  let (sends, hears, takes) := (3 * n, 3 * n + 1, 3 * n + 2)
  let (reads, serves, confirms) := (3 * n, 3 * n + 1, 3 * n + 2)
  [(.first, .start (.send (.memoryAvailable reference))), (.first, .run sends),
    (.first, .sent sends (.ok ())), (.second, .start (.receive (.data (own n) [6, reference]))),
    (.second, .run reads), (.second, .run reads), (.second, .sent reads (.ok ())),
    (.second, .run serves), (.second, .answered serves (.ok none) now),
    (.second, .sent serves (.ok ())), (.first, .start (.receive (.ack (other n)))),
    (.first, .run hears), (.first, .run sends),
    (.first, .start (.receive (.data (other n) [3, reference]))), (.first, .run takes),
    (.first, .run sends), (.first, .sent sends (.ok ())), (.first, .run sends),
    (.second, .start (.receive (.ack (own n)))), (.second, .run confirms)]

/-- The time at which everything happens in the exchanges below. -/
def midnight : Timestamp := ⟨2000, 1, 1, 0, 0, 0, 0⟩

theorem agreed_exchange : ∃ h l,
    replay step? (ofConfigs fun _ => {}) (exchange midnight 0) = some (h, l) ∧ Agreed h ∧
      story h .first 0 = [.called 1 .memoryAvailable, .decided 1 (.ok none) midnight] ∧
      ((l .first).entity.task? 0).isNone := by
  obtain ⟨⟨h, l⟩, hr⟩ :
      ∃ r, replay step? (ofConfigs fun _ => {}) (exchange midnight 0) = some r :=
    Option.isSome_iff_exists.1 (by decide +kernel)
  have hall : ((replay step? (ofConfigs fun _ => {}) (exchange midnight 0)).map fun r =>
      story r.1 .first 0 == [.called 1 .memoryAvailable, .decided 1 (.ok none) midnight] &&
        ((r.2 .first).entity.task? 0).isNone) = some true := by
    decide +kernel
  simp only [hr, Option.map_some, Option.some.injEq, Bool.and_eq_true, beq_iff_eq] at hall
  exact ⟨h, l, hr, agreed_of_run (run_of_replay hr), hall.1, hall.2⟩

end ShortMessage.Link
