import ShortMessage.Proofs.Control.Reception
import ShortMessage.Proofs.Link.Traffic
import ShortMessage.Proofs.Relay.Refusal

/-!
# Input that is refused

When something comes in and is refused, nothing is left of the call but that a number was given to its
task, and perhaps one to a lease (`Untouched`).  So the entity goes on as it would have without the
call (`mirrors`): whoever compares the two runs finds other numbers, and nothing else.

`refusals_of_run` says it of both layers, for every state that can be reached, and also what such input
leaves alone when its task is not alone.
-/

namespace ShortMessage.Control

open Transaction

/-- Is the end of something that came in that it is refused? -/
def Result.isRefusal : Result → Bool
  | .received (.error _) => true
  | _ => false

/-- A call with something that comes in and is refused. -/
def Refused (e : Entity) (c : List Transit) (e' : Entity) : Prop :=
  ∃ input failure, input.isReceived = true ∧ Call Entity.step? Entity.started e input c e' ∧
    .received (.error failure) ∈ results c e.started

/-- A call has left nothing behind in the tables and in the list of tasks, and has started no task
but its own. -/
structure Untouched (e e' : Entity) : Prop where
  outgoing : e'.outgoing = e.outgoing
  slots : e'.incoming.slots = e.incoming.slots
  cursor : e'.incoming.cursor = e.incoming.cursor
  mailboxes : e'.incoming.mailboxes = e.incoming.mailboxes
  tasks : e'.tasks = e.tasks
  started : e'.started = e.started + 1
  clock : e'.clock = e.clock
  config : e'.config = e.config

/-- The tasks in the list were started, and their leases were made. -/
def Entity.Listed (e : Entity) : Prop :=
  ∀ x ∈ e.tasks, x.1 < e.started ∧
    ∀ l, Entity.incomingLease? x.2 = some l → l.serial < e.incoming.issued

/-- The entity `u` is `t` after some calls that left nothing behind. -/
def Mirror (number : TaskId → TaskId) (t u : Entity) : Prop :=
  t.Orderly ∧ t.Listed ∧ ∃ (hn : Spaced t.started number) (σ : Nat → Nat),
    Spaced t.incoming.issued σ ∧ u = t.image (.all number hn.mono) σ

/-- Input that is refused leaves no trace in a history that leads to `e`. -/
structure Refusals (config : Config) (h : List Transit) (e : Entity) : Prop where
  /-- A call with such input leaves nothing behind. -/
  untouched : ∀ {c e'}, Refused e c e' → Untouched e e'
  /-- It is answered with one message at most, and the application is not asked. -/
  quiet : ∀ {c e'}, Refused e c e' → (emissions c e.started).length ≤ 1 ∧
    ∀ tr ∈ c, ∀ ev ∈ tr.events, ev.task = e.started ∧ ∀ call, ev ≠ .called e.started call
  /-- An error is not answered. -/
  error : ∀ {input c e'}, ErrorInput input → Call Entity.step? Entity.started e input c e' →
    emissions c e.started = []
  /-- Whatever else goes on, as little is said for the input, its task ends with it, and no step of the
  task touches another task, or a transaction but the one that the task may have taken. -/
  spared : ∀ {id failure}, .received (.error failure) ∈ results h id →
    e.task? id = none ∧ (emissions h id).length ≤ 1 ∧
      (∀ input, input? Entity.started h id = some input → ErrorInput input → emissions h id = []) ∧
      ∀ tr ∈ h, (∀ call, .called id call ∉ tr.events) ∧ (actor? tr.move = some id → Spares id tr)
  /-- Wherever such calls are put in, everything else goes on as without them. -/
  unnoticed : ∀ {k u number},
    Padded Entity.step? Entity.started Refused (.ofConfig config) h e k u number →
    Unnoticed Entity.step? Entity.started Entity.clock Refused (.ofConfig config) h e k u number ∧
      u.outgoing = e.outgoing ∧ ∃ σ, StrictMono σ ∧ u.incoming = e.incoming.renumber σ

section

variable {config : Config} {h c : List Transit} {e e' : Entity} {id : TaskId}
  {move : Move Input} {events : List (Event Message Result)} {task : Task} {input : Input}
  {outgoing incoming : Table Message Unit}

/-! ## Numbers that were given out -/

theorem Entity.Listed.settle {task' : Option Task} (hl : e.Listed) (ho : e.Orderly)
    (ht : e.task? id = some task)
    (ha : Entity.Act e id move task task' outgoing incoming events) :
    (e.settle id task' outgoing incoming).Listed := by
  have hr := Entity.Rule.act ht ha
  have hissued := hr.issued_le ho
  have hold {x : TaskId × Task} (hx : x ∈ e.tasks) : x.1 < e.started ∧ ∀ l,
      Entity.incomingLease? x.2 = some l →
        l.serial < (e.settle id task' outgoing incoming).incoming.issued :=
    ⟨(hl x hx).1, fun l hlease => Nat.lt_of_lt_of_le ((hl x hx).2 l hlease) hissued⟩
  intro x hx
  rw [Entity.started_settle]
  cases task' with
  | none => exact hold (List.mem_of_mem_filter hx)
  | some task' =>
    obtain ⟨y, hy, rfl⟩ := List.mem_map.1 hx
    by_cases hid : y.1 = id
    · rw [if_pos hid]
      refine ⟨ho.lt_started ht, fun l hlease => ?_⟩
      have hleased : (e.settle id (some task') outgoing incoming).leaseIn? id = some l := by
        rw [Entity.leaseIn?_settle ht, if_pos rfl]
        exact hlease
      exact (ho.step hr).serial_lt hleased
    · rw [if_neg hid]
      exact hold hy

theorem Entity.Listed.step (hl : e.Listed) (ho : e.Orderly) (hr : Entity.Rule e move e' events) :
    e'.Listed := by
  cases hr with
  | act ht ha => exact hl.settle ho ht ha
  | elapsed duration => exact hl
  | start input =>
    intro x hx
    rcases List.mem_append.1 hx with hx | hx
    · exact ⟨Nat.lt_succ_of_lt (hl x hx).1, (hl x hx).2⟩
    · obtain rfl := List.mem_singleton.1 hx
      exact ⟨Nat.lt_succ_self _, by cases input <;> rintro _ ⟨⟩⟩
  | handedOver ht =>
    intro x hx
    rcases List.mem_append.1 (List.mem_of_mem_filter hx) with hx | hx
    · exact ⟨Nat.lt_succ_of_lt (hl x hx).1, (hl x hx).2⟩
    · obtain rfl := List.mem_singleton.1 hx
      refine ⟨Nat.lt_succ_self _, ?_⟩
      rintro _ ⟨⟩
      exact ho.serial_lt (Entity.leaseIn?_eq ht)

/-- Numbers that were never given out do not matter, but for the next ones. -/
theorem Entity.Listed.image_congr {n m : Numbering} {σ τ : Nat → Nat} (hl : e.Listed)
    (hs : e.incoming.Sound) (hn : ∀ i < e.started, m.keeps i = n.keeps i ∧ m.number i = n.number i)
    (hσ : ∀ i < e.incoming.issued, τ i = σ i) : e.image m τ =
      { e.image n σ with
        incoming := { e.incoming.renumber σ with issued := τ e.incoming.issued }
        started := m.number e.started } := by
  have htasks : m.tasks (Task.renumber τ) e.tasks = n.tasks (Task.renumber σ) e.tasks := by
    refine Numbering.tasks_congr _ _ fun x hx => ?_
    obtain ⟨hlt, hserial⟩ := hl x hx
    obtain ⟨hkeeps, hnumber⟩ := hn _ hlt
    exact ⟨hkeeps, hnumber, Entity.renumber_congr fun l hlease => hσ _ (hserial l hlease)⟩
  simp only [Entity.image, htasks, hs.renumber_congr hσ]

/-! ## Runs with refused input put in -/

theorem Mirror.step {number : TaskId → TaskId} {t u : Entity} (hm : Mirror number t u)
    (move : Move Input) :
    Option.Rel (fun x y => y.2 = x.2.map (Event.renumber number) ∧ Mirror number x.1 y.1)
      (t.step? move) (u.step? (move.renumber number)) := by
  obtain ⟨ho, hl, hn, σ, hσ, rfl⟩ := hm
  have himage : (t.image (.all number hn.mono) σ).step? (move.renumber number) =
      Entity.imageStep (.all number hn.mono) σ (t.step? move) :=
    t.step?_image hσ.mono.injective hσ.succ (fun _ _ => rfl) fun _ => ⟨rfl, hn.succ⟩
  rw [himage]
  rcases hs : t.step? move with _ | ⟨t', events⟩
  · exact .none
  · have hr := Entity.rule_of_step? hs
    exact .some ⟨rfl, ho.step hr, hl.step ho hr, hn.of_le hr.started_le, σ,
      hσ.of_le (hr.issued_le ho), rfl⟩

theorem Mirror.afterCall {number : TaskId → TaskId} {t u : Entity} {leases : Nat}
    (hm : Mirror number t u) (hleases : leases ≤ 1) :
    Mirror (shift t.started number) t (u.afterCall leases) := by
  obtain ⟨ho, hl, hn, σ, hσ, rfl⟩ := hm
  obtain ⟨τ, hτ, hsame, hnext⟩ : ∃ τ, Spaced t.incoming.issued τ ∧
      (∀ i < t.incoming.issued, τ i = σ i) ∧ τ t.incoming.issued = σ t.incoming.issued + leases := by
    obtain rfl | rfl : leases = 0 ∨ leases = 1 := by omega
    · exact ⟨σ, hσ, fun _ _ => rfl, rfl⟩
    · exact ⟨shift t.incoming.issued σ, hσ.shift, fun i hi => if_pos hi, if_neg (Nat.lt_irrefl _)⟩
  have himage := hl.image_congr (n := .all number hn.mono) (m := .all _ hn.shift.mono)
    ho.incoming.sound (fun i hi => ⟨rfl, if_pos hi⟩) hsame
  have hstarted : (Numbering.all _ hn.shift.mono).number t.started = number t.started + 1 :=
    if_neg (Nat.lt_irrefl _)
  rw [hnext, hstarted] at himage
  exact ⟨ho, hl, hn.shift, τ, hτ, himage.symm⟩

/-- What is seen is seen of tasks that were started. -/
theorem task_lt_of_run (hrun : Run Entity.step? (.ofConfig config) h e) :
    e.Orderly ∧ ∀ tr ∈ h, ∀ ev ∈ tr.events, ev.task < e.started := by
  induction hrun with
  | rest => exact ⟨Entity.orderly_ofConfig config, by rintro _ ⟨⟩⟩
  | step _ hs ih =>
    obtain ⟨ho, hold⟩ := ih
    have hr := Entity.rule_of_step? hs
    refine ⟨ho.step hr, fun tr htr ev hev => Nat.lt_of_lt_of_le ?_ hr.started_le⟩
    rcases List.mem_append.1 htr with htr | htr
    · exact hold tr htr ev hev
    · obtain rfl := List.mem_singleton.1 htr
      obtain ⟨task, ht⟩ := hr.exists_task (hr.task_of_mem hev)
      exact ho.lt_started ht

/-- Calls whose input is refused leave no trace. -/
theorem mirrors (config : Config) :
    Mirrors Entity.step? Entity.started Entity.clock Refused (.ofConfig config) Mirror where
  rest := by
    refine ⟨Entity.orderly_ofConfig config, by rintro _ ⟨⟩, .id, id, .id, ?_⟩
    exact (Entity.image_ofConfig _ rfl config).symm
  step move hm := hm.step move
  call hm hrun hc := by
    obtain ⟨input, failure, hinput, hcall, hfailure⟩ := hc
    have ho := (attentive_of_run hrun).orderly
    obtain ⟨⟨leases, hleases, rfl⟩, -⟩ := (ongoing_of_call ho hcall hinput).of_refused hfailure
    exact hm.afterCall hleases
  alone hrun hc := by
    obtain ⟨input, failure, hinput, hcall, -⟩ := hc
    have hongoing := ongoing_of_call (attentive_of_run hrun).orderly hcall hinput
    exact ⟨hcall.run, fun tr htr ev hev => (hongoing.uncalled tr htr ev hev).1⟩
  spaced := fun ⟨_, _, hn, _⟩ => hn
  started_eq := by
    rintro number t u ⟨-, -, hn, σ, -, rfl⟩
    rfl
  clock_eq := by
    rintro number t u ⟨-, -, hn, σ, -, rfl⟩
    rfl
  fresh hrun hid := seen_eq_nil fun tr htr ev hev =>
    Nat.ne_of_lt (Nat.lt_of_lt_of_le ((task_lt_of_run hrun).2 tr htr ev hev) hid)

/-! ## The result -/

theorem Refused.ongoing (hc : Refused e c e') (ho : e.Orderly) :
    (∃ leases, leases ≤ 1 ∧ e' = e.afterCall leases) ∧ (emissions c e.started).length ≤ 1 ∧
      ∀ tr ∈ c, ∀ ev ∈ tr.events, ev.task = e.started ∧ ∀ call, ev ≠ .called e.started call := by
  obtain ⟨input, failure, hinput, hcall, hfailure⟩ := hc
  have hongoing := ongoing_of_call ho hcall hinput
  obtain ⟨hafter, hshort⟩ := hongoing.of_refused hfailure
  exact ⟨hafter, hshort, hongoing.uncalled⟩

theorem unanswered_of_call (hrun : Run Entity.step? (.ofConfig config) h e) (herror : ErrorInput input)
    (hc : Call Entity.step? Entity.started e input c e') : emissions c e.started = [] := by
  have hinput : input? Entity.started (h ++ c) e.started = some input := by
    obtain ⟨e1, events, rest, rfl, -⟩ := hc.start
    have hfresh := (received_of_run hrun).fresh (Nat.le_refl e.started)
    unfold input? at hfresh ⊢
    rw [List.findSome?_append, hfresh]
    simp
  have hsilent := (harmless_of_run (hrun.append hc.run)).unanswered hinput herror
  rw [emissions_append] at hsilent
  exact (List.append_eq_nil_iff.1 hsilent).2

theorem refusals (hrun : Run Entity.step? (.ofConfig config) h e) : Refusals config h e where
  untouched hc := by
    obtain ⟨⟨leases, -, rfl⟩, -⟩ := hc.ongoing (attentive_of_run hrun).orderly
    exact ⟨rfl, rfl, rfl, rfl, rfl, rfl, rfl, rfl⟩
  quiet hc := (hc.ongoing (attentive_of_run hrun).orderly).2
  error herror hc := unanswered_of_call hrun herror hc
  spared hres := by
    obtain ⟨hgone, hshort, hspares⟩ := spares_of_refused hrun hres
    exact ⟨hgone, hshort, fun _ => (harmless_of_run hrun).unanswered, hspares⟩
  unnoticed hp := by
    obtain ⟨-, -, ⟨-, -, hn, σ, hσ, rfl⟩, -⟩ := (mirrors config).seen_eq hp
    exact ⟨(mirrors config).unnoticed hp, rfl, σ, hσ.mono, rfl⟩

/-- In both layers, input that is refused leaves no trace. -/
theorem refusals_of_run {config' : Relay.Config} {h' : List Relay.Step} {e' : Relay.Entity}
    (hrelay : Run Relay.Entity.step? (.ofConfig config') h' e')
    (hcontrol : Run Entity.step? (.ofConfig config) h e) :
    Relay.Refusals config' h' e' ∧ Refusals config h e :=
  ⟨Relay.refusals hrelay, refusals hcontrol⟩

theorem exists_of_isRefusal {result : Result} (hr : result.isRefusal = true) :
    ∃ failure, result = .received (.error failure) := by
  cases result with
  | sent | served => cases hr
  | received outcome =>
    cases outcome with
    | ok => cases hr
    | error failure => exact ⟨failure, rfl⟩

/-- A request waits for its answer. -/
def oneOutstanding : List (Move Relay.Input) :=
  [.start (.request .notice), .run 0, .sent 0 (.ok ())]

/-- A message waits for its acknowledgement. -/
def oneUnderway : List (Move Input) :=
  [.start (.send (.memoryAvailable 7)), .run 0, .sent 0 (.ok ())]

/-- What the task of a request does that comes in while the transport fails. -/
def failing : List (Move Input) :=
  [.run 1, .run 1, .sent 1 (.error (.control .networkFailure)), .run 1]

/-- The answer to a request travels the wrong way, and a request of the other side cannot be
acknowledged. -/
theorem refusals_failing : ∃ h' e' c' t' h e c t,
    replay Relay.Entity.step? (.ofConfig {}) oneOutstanding = some (h', e') ∧
      replay Entity.step? (.ofConfig {}) oneUnderway = some (h, e) ∧
      (Relay.Refusals {} h' e' ∧ Refusals {} h e) ∧
      Relay.Refused e' c' t' ∧ Refused e c t ∧ emissions c e.started = [.ack ⟨true, 3⟩] ∧
      Padded Entity.step? Entity.started Refused (.ofConfig {}) h e (h ++ c) t
        (shift e.started fun i => i) := by
  have hrelay : (replay Relay.Entity.step? (.ofConfig {}) oneOutstanding).any (fun r =>
      r.2.started == 1 && (replay Relay.Entity.step? r.2
        [.start (.indication (.ack .toCentre 0 none)), .run 1]).any fun s =>
          (results s.1 1).any Relay.Result.isRefusal) = true := by
    decide +kernel
  have hcontrol : (replay Entity.step? (.ofConfig {}) oneUnderway).any (fun r =>
      r.2.started == 1 && (replay Entity.step? r.2
        (.start (.receive (.data ⟨false, 3⟩ [6, 1])) :: failing)).any fun s =>
          emissions s.1 1 == [.ack ⟨true, 3⟩] && (results s.1 1).any Result.isRefusal) = true := by
    decide +kernel
  obtain ⟨h', e', hr', hrun', hc'⟩ := exists_run_of_replay hrelay
  obtain ⟨h, e, hr, hrun, hc⟩ := exists_run_of_replay hcontrol
  simp only [Bool.and_eq_true, beq_iff_eq] at hc' hc
  obtain ⟨hstarted', hthere'⟩ := hc'
  obtain ⟨hstarted, hthere⟩ := hc
  obtain ⟨c', t', hcall', -, hfailed'⟩ := exists_run_of_replay hthere'
  obtain ⟨c, t, hcall, -, hfailed⟩ := exists_run_of_replay hthere
  simp only [Bool.and_eq_true, beq_iff_eq] at hfailed
  have hrefused' : Relay.Refused e' c' t' := by
    obtain ⟨result, hresult, herror⟩ := List.any_eq_true.1 hfailed'
    obtain ⟨failure, rfl⟩ := Relay.exists_of_isRefusal herror
    exact ⟨_, _, rfl, call_of_replay hcall' (by simp [hstarted', actor?]), hstarted' ▸ hresult⟩
  have hrefused : Refused e c t := by
    obtain ⟨result, hresult, herror⟩ := List.any_eq_true.1 hfailed.2
    obtain ⟨failure, rfl⟩ := exists_of_isRefusal herror
    exact ⟨_, _, rfl, call_of_replay hcall (by simp [failing, hstarted, actor?]), hstarted ▸ hresult⟩
  exact ⟨h', e', c', t', h, e, c, t, hr', hr, refusals_of_run hrun' hrun, hrefused', hrefused,
    hstarted ▸ hfailed.1, .call (padded_of_run hrun) hrefused⟩

end

end ShortMessage.Control
