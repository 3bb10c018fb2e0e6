import ShortMessage.Proofs.Link.Moves

/-!
# The invariant of the two parties

`lines_of_run` — whatever the two parties do, every line is in one of its stages.
-/

namespace ShortMessage.Link

open Control Transaction
open Control.Entity (outgoingLease? incomingLease?)

variable {h : List Passage} {l l' : State} {p q : Party} {move : Move Input}
  {events : List (Event Control.Message Result)} {cause : Option TaskId} {inbound : List Parcel}
  {i : TaskId}

/-! ## At first -/

theorem lines_ofConfigs (config : Party → Config) : Lines [] (ofConfigs config) where
  steady p := steady_ofConfig (config p)
  prompt p := by rintro _ _ ⟨⟩
  range p := by rintro _ ⟨⟩
  stage p n hn := .trailing (.gone (by rintro _ _ ⟨⟩)) rfl (.idle (by rintro _ _ ⟨⟩) rfl)
  opening := by rintro _ _ _ ⟨⟩
  fresh _ := ⟨rfl, rfl, rfl⟩
  foreign := by rintro _ _ _ _ ⟨⟩

/-! ## Step by step -/

section

variable (hl : Lines h l) (hm : Moved l l' p move events cause inbound)

include hl hm

/-- Nothing happens to what is not being sent on a transaction. -/
theorem Moved.entry_eq_none_of {q : Party}
    (hnone : ∀ n phase mail, ¬Client (l q).entity n i phase mail) :
    entryIn? q i ⟨l, (p, move), events, l'⟩ = none := by
  cases he : entryIn? q i ⟨l, (p, move), events, l'⟩ with
  | none => rfl
  | some entry =>
    rcases Party.eq_or p q with rfl | rfl
    · exact absurd he (by rw [entryIn?, if_neg (Party.peer_ne q).symm]; rintro ⟨⟩)
    · obtain ⟨n, phase, mail, _, _, hc, -⟩ := hm.entry_client hl he
      exact absurd hc (hnone n phase mail)

theorem Lines.steady_step (q : Party) : Steady (l' q).entity := by
  rcases Party.eq_or p q with rfl | rfl
  · exact (hl.steady q).step hm.calm hm.rule
  · rw [hm.entity_peer]
    exact hl.steady _

omit hl in
theorem Moved.started_le (q : Party) : (l q).entity.started ≤ (l' q).entity.started := by
  rcases Party.eq_or p q with rfl | rfl
  · exact hm.rule.started_le
  · exact Nat.le_of_eq (congrArg (·.started) hm.entity_peer.symm)

theorem Lines.fresh_step (hle : (l' q).entity.started ≤ i) :
    input? Entity.started (steps (h ++ [⟨l, (p, move), events, l'⟩]) q) i = none ∧
      (memory (h ++ [⟨l, (p, move), events, l'⟩]) q).story i = [] ∧
      (memory (h ++ [⟨l, (p, move), events, l'⟩]) q).emitted i = [] := by
  have hle' := Nat.le_trans (hm.started_le q) hle
  obtain ⟨hinput, hstory, hemitted⟩ := hl.fresh hle'
  have hnone : entryIn? q i ⟨l, (p, move), events, l'⟩ = none := by
    refine hm.entry_eq_none_of hl fun n phase mail hc => ?_
    exact absurd ((hl.steady q).orderly.lt_started hc.1) (Nat.not_lt.2 hle')
  refine ⟨?_, (story_snoc_of_none hnone).trans hstory, ?_⟩
  · rcases Party.eq_or p q with rfl | rfl
    · rw [steps_mover]
      obtain ⟨input, -, -, hlt⟩ | hsame := hm.rule.input?_eq (steps h q) i
      · exact absurd hle (Nat.not_le.2 (hlt ▸ Nat.lt_succ_self i))
      · exact hsame.trans hinput
    · rw [steps_peer]
      exact hinput
  · rcases Party.eq_or p q with rfl | rfl
    · refine (hm.emitted_of_ne fun hactor => ?_).trans hemitted
      obtain ⟨task, ht⟩ := hm.rule.exists_task hactor
      exact absurd ((hl.steady q).orderly.lt_started ht) (Nat.not_lt.2 hle')
    · exact emitted_peer.trans hemitted

/-- A request that has no transaction yet waits for its turn, or has just been handed in. -/
theorem Lines.opening_before {m : Relay.Message}
    (ht : (l' q).entity.task? i = some (.sending (.opening m))) :
    (l q).entity.task? i = some (.sending (.opening m)) ∨
      q = p ∧ move = .start (.send m) ∧ (l q).entity.started = i := by
  rcases Party.eq_or p q with rfl | rfl
  · by_cases hactor : actor? move = some i
    · exact absurd ht (hm.rule.not_opening hactor)
    · obtain h | ⟨m', hmove, hi, heq⟩ := hm.rule.sending_of_ne (hl.steady q).orderly hactor ht
      · exact .inl h
      · cases heq
        exact .inr ⟨rfl, hmove, hi⟩
  · rw [hm.entity_peer] at ht
    exact .inl ht

theorem Lines.opening_step {m : Relay.Message}
    (ht : (l' q).entity.task? i = some (.sending (.opening m))) :
    (memory (h ++ [⟨l, (p, move), events, l'⟩]) q).asked i = some m ∧ m.isRequest = true ∧
      (memory (h ++ [⟨l, (p, move), events, l'⟩]) q).story i = [] ∧
      (memory (h ++ [⟨l, (p, move), events, l'⟩]) q).emitted i = [] := by
  obtain hbefore | ⟨rfl, rfl, hstarted⟩ := hl.opening_before hm ht
  · obtain ⟨hasked, hreq, hstory, hemitted⟩ := hl.opening hbefore
    have hnone : entryIn? q i ⟨l, (p, move), events, l'⟩ = none := by
      refine hm.entry_eq_none_of hl ?_
      rintro n phase mail ⟨ht', lease, hlease, -⟩
      rw [hbefore] at ht'
      cases ht'
      rw [Entity.leaseOut?_eq hbefore] at hlease
      cases hlease
    refine ⟨hm.asked_of_some hasked, hreq, (story_snoc_of_none hnone).trans hstory, ?_⟩
    rcases Party.eq_or p q with rfl | rfl
    · exact (hm.emitted_of_ne fun hactor => hm.rule.not_opening hactor ht).trans hemitted
    · exact emitted_peer.trans hemitted
  · obtain ⟨hinput, hstory, hemitted⟩ := hl.fresh (Nat.le_of_eq hstarted)
    refine ⟨?_, ?_, story_mover.trans hstory, (hm.emitted_of_ne (by rintro ⟨⟩)).trans hemitted⟩
    · show message? (steps _ q) i = _
      rw [steps_mover]
      unfold message?
      rw [input?_snoc_of_start hinput rfl hstarted]
      rfl
    · have hadmits := hm.admits
      simp only [Side.admits?, Option.ite_none_right_eq_some] at hadmits
      exact hadmits.1

theorem Lines.foreign_step {t : TransactionId} {r : Relay.Message}
    (ht : (l' q).entity.task? i = some (.receiving (.opening t r))) : t.flag = false := by
  rcases Party.eq_or p q with rfl | rfl
  case inr =>
    rw [hm.entity_peer] at ht
    exact hl.foreign ht
  have ho := (hl.steady q).orderly
  have hrule := hm.rule
  generalize (l' q).entity = e at hrule ht
  cases hrule with
  | start input =>
    rw [ho.task?_spawn] at ht
    split at ht
    · cases input <;> cases ht
    · exact hl.foreign ht
  | elapsed duration => exact hl.foreign ht
  | handedOver hbefore =>
    rw [ho.task?_handedOver hbefore] at ht
    split at ht
    · cases ht
    · split at ht
      · cases ht
      · exact hl.foreign ht
  | act hbefore ha =>
    rw [Entity.task?_settle _ _ _ hbefore] at ht
    split at ht
    · cases ha with
      | lookedAt hflag =>
        cases ht
        exact hflag
      | _ => cases ht
    · exact hl.foreign ht

/-- A message is looked at only when the one before it is not any more. -/
theorem Lines.prompt_received {m : Control.Message} (hmove : move = .start (.receive m))
    (he : (l' p).entity = (l p).entity.spawn (.receiving (.arrived m))) : Prompt (l' p) := by
  have ho := (hl.steady p).orderly
  have hadmits := hm.admits
  have hmover := hm.mover
  rw [he] at hmover
  rw [hmover]
  subst hmove
  simp only [Side.admits?] at hadmits
  split at hadmits
  case h_2 => cases hadmits
  split at hadmits
  case isFalse => cases hadmits
  rename_i hready
  obtain ⟨hready, -⟩ := hready
  cases hadmits
  intro j x ht hx
  have ht' : ((l p).entity.spawn (.receiving (.arrived m))).task? j = some x := ht
  rw [ho.task?_spawn] at ht'
  split at ht'
  · rename_i hj
    subst hj
    exact ⟨rfl, _, if_pos rfl⟩
  · obtain ⟨hlatest, -⟩ := hl.prompt p ht' hx
    unfold Side.isReady at hready
    rw [hlatest, Option.bind_some, ht'] at hready
    cases x with
    | receiving r => cases r <;> cases hx <;> cases hready
    | _ => cases hx

theorem Lines.prompt_step (q : Party) : Prompt (l' q) := by
  rcases Party.eq_or p q with rfl | rfl
  case inr =>
    rw [hm.peer]
    exact (hl.prompt _).await _
  have hprompt := hl.prompt q
  have ho := (hl.steady q).orderly
  have hrule := hm.rule
  have hmover := hm.mover
  generalize he : (l' q).entity = e at hrule hmover
  cases hrule with
  | start input =>
    cases input with
    | receive m => exact hl.prompt_received hm rfl he
    | receiveOctets octets => cases hm.calm
    | send m =>
      rw [hmover]
      refine hprompt.advance ho (by rintro _ ⟨⟩) fun j x hx ht => ?_
      rw [ho.task?_spawn] at ht
      split at ht
      · cases ht
        cases hx
      · exact ⟨x, ht, hx⟩
  | elapsed duration =>
    rw [hmover]
    exact hprompt.advance ho (by rintro _ ⟨⟩) fun j x hx ht => ⟨x, ht, hx⟩
  | handedOver hbefore =>
    rw [hmover]
    refine hprompt.advance ho (by rintro _ ⟨⟩) fun j x hx ht => ?_
    rw [ho.task?_handedOver hbefore] at ht
    split at ht
    · cases ht
      cases hx
    · split at ht
      · cases ht
      · exact ⟨x, ht, hx⟩
  | act hbefore ha =>
    rw [hmover]
    refine hprompt.advance ho ?_ fun j x hx ht => ?_
    · rintro m rfl
      cases ha.actor
    · rw [Entity.task?_settle _ _ _ hbefore] at ht
      split at ht
      · rename_i hj
        subst hj
        refine ⟨_, hbefore, Act.looking ha ?_ ht hx⟩
        rintro octets rfl
        exact (hl.steady q).unread hbefore
      · exact ⟨x, ht, hx⟩

theorem Lines.range_step (q : Party) :
    ∀ item ∈ (l' q).queue, item.transaction.value.toNat < transactionCount := by
  have turn := hl.turn hm
  rcases Party.eq_or p q with rfl | rfl
  · exact turn.range
  · intro item hitem
    rw [hm.peer, Side.queue_await] at hitem
    rcases List.mem_append.1 hitem with hitem | hitem
    · exact hl.range _ item hitem
    · obtain ⟨parcel, hparcel, rfl⟩ := List.mem_map.1 hitem
      exact turn.emitted parcel hparcel

theorem Lines.stage_step (q : Party) {n : Nat} (hn : n < transactionCount) :
    Stage (memory (h ++ [⟨l, (p, move), events, l'⟩]) q) (l' q) (l' q.peer) n := by
  have turn := hl.turn hm
  rcases Party.eq_or p q with rfl | rfl
  · exact turn.ownLines n hn
  · rw [Party.peer_peer]
    exact turn.otherLines n hn

/-- Every step keeps the invariant. -/
theorem Lines.step : Lines (h ++ [⟨l, (p, move), events, l'⟩]) l' where
  steady := hl.steady_step hm
  prompt := hl.prompt_step hm
  range := hl.range_step hm
  stage q _ := hl.stage_step hm q
  opening := hl.opening_step hm
  fresh := hl.fresh_step hm
  foreign := hl.foreign_step hm

end

/-- Whatever the two parties do, every line is in one of its stages. -/
theorem lines_of_run {config : Party → Config} (hrun : Run step? (ofConfigs config) h l) :
    Lines h l := by
  induction hrun with
  | rest => exact lines_ofConfigs config
  | step _ hs ih =>
    obtain ⟨_, _, hm⟩ := step?_eq_moved hs
    exact ih.step hm

end ShortMessage.Link
