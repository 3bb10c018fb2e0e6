import ShortMessage.Proofs.Link.Line

/-!
# What a step leaves alone

A step of a party concerns one line at most.  For all other transactions the tasks and the messages
that wait for them are the same after it (`Steady.client_of_ne`, `Steady.server_of_ne`), as long as
no timer runs down and nothing fails (`calm`).  `Steady` is what such steps keep (`Steady.step`):
every transaction is kept to its end.
-/

namespace ShortMessage.Link

open Control Transaction
open Control.Entity (outgoingLease? incomingLease?)

/-! ## Entities without failures -/

/-- A move that may be made: nothing fails, no timer runs down, and messages come in as such. -/
def calm : Move Input → Bool
  | .start (.send _) | .start (.receive _) | .run _ | .sent _ (.ok ()) | .answered _ _ _
  | .elapse _ => true
  | _ => false

theorem calm_of_admits {s : Side} {move : Move Input} {cause : Option TaskId}
    {inbound : List Parcel} (h : s.admits? move = some (cause, inbound)) : calm move = true := by
  unfold Side.admits? at h
  split at h
  all_goals first | rfl | cases h

/-- An entity in which nothing has failed: every transaction is kept to its end. -/
structure Steady (e : Entity) : Prop where
  orderly : e.Orderly
  outgoing : Tenancy e.outgoing e.leaseOut?
  incoming : Tenancy e.incoming e.leaseIn?
  unread : ∀ {id octets}, e.task? id ≠ some (.receiving (.octets octets))
  unexpired : ∀ {id s}, e.task? id ≠ some (.sending (.expired s))

theorem steady_ofConfig (config : Config) : Steady (Entity.ofConfig config) :=
  ⟨Entity.orderly_ofConfig config, tenancy_idle _ _, tenancy_idle _ _, by rintro _ _ ⟨⟩,
    by rintro _ _ ⟨⟩⟩

section

variable {e e' : Entity} {id j : TaskId} {move : Move Input} {task : Task} {task' : Option Task}
  {outgoing incoming : Table Control.Message Unit} {events : List (Event Control.Message Result)}
  {n : Nat} {phase : Sending} {mail box : List Control.Message}

/-- A step keeps what is on the transaction `n` of this side. -/
def KeepsClient (e e' : Entity) (n : Nat) : Prop :=
  (∀ {id phase mail}, Client e n id phase mail → Client e' n id phase mail) ∧
    (Vacant e.leaseOut? n → Vacant e'.leaseOut? n)

/-- A step keeps what is on the transaction `n` of the other side. -/
def KeepsServer (e e' : Entity) (n : Nat) : Prop :=
  (∀ {id task box}, Server e n id task box → Server e' n id task box) ∧
    (Vacant e.leaseIn? n → Vacant e'.leaseIn? n)

/-- A task that has nothing on the transaction `n`, and posts nothing there. -/
theorem Steady.client_of_ne (hs : Steady e) (ht : e.task? id = some task)
    (ha : Entity.Act e id move task task' outgoing incoming events)
    (hbefore : ∀ {l}, outgoingLease? task = some l → l.index ≠ n)
    (hafter : ∀ {l}, task'.bind outgoingLease? = some l → l.index ≠ n)
    (hpost : ∀ {m}, task = .receiving (.arrived m) → m.transaction.flag = true →
      m.transaction.value.toNat ≠ n) :
    KeepsClient e (e.settle id task' outgoing incoming) n := by
  have hkeep : (∀ {j mail}, Tenant e.outgoing e.leaseOut? n j mail →
      Tenant outgoing (e.settle id task' outgoing incoming).leaseOut? n j mail) ∧
      (Vacant e.leaseOut? n → Vacant (e.settle id task' outgoing incoming).leaseOut? n) := by
    obtain hc | ⟨m, rfl, hflag, hp, -, -, rfl, -⟩ := ha.outgoing_change hs.orderly.outgoing.sound
    · rw [← Entity.leaseOut?_eq ht] at hc hbefore
      exact hs.outgoing.of_ne hc (Entity.leaseOut?_settle ht) hbefore hafter
    · have hsame : (e.settle id none outgoing incoming).leaseOut? = e.leaseOut? := by
        funext j
        rw [Entity.leaseOut?_settle ht]
        split
        · rename_i hj
          rw [hj, Entity.leaseOut?_eq ht]
          rfl
        · rfl
      rw [hsame]
      refine ⟨fun htenant => ?_, fun hv => hv⟩
      have := hs.outgoing.tenant_post hp htenant
      rwa [if_neg (Ne.symm (hpost rfl hflag))] at this
  refine ⟨?_, hkeep.2⟩
  rintro j phase mail ⟨hj, htenant⟩
  refine ⟨?_, by rw [Entity.outgoing_settle]; exact hkeep.1 htenant⟩
  rw [Entity.task?_settle _ _ _ ht, if_neg]
  · exact hj
  · rintro rfl
    obtain ⟨l, hl, hn, -⟩ := htenant
    exact hbefore ((Entity.leaseOut?_eq ht).symm.trans hl) hn

theorem Steady.server_of_ne (hs : Steady e) (ht : e.task? id = some task)
    (ha : Entity.Act e id move task task' outgoing incoming events)
    (hbefore : ∀ {l}, incomingLease? task = some l → l.index ≠ n)
    (hafter : ∀ {l}, task'.bind incomingLease? = some l → l.index ≠ n)
    (hpost : ∀ {m}, task = .receiving (.arrived m) → m.transaction.flag = false →
      m.transaction.value.toNat ≠ n) :
    KeepsServer e (e.settle id task' outgoing incoming) n := by
  have hkeep : (∀ {j box}, Tenant e.incoming e.leaseIn? n j box →
      Tenant incoming (e.settle id task' outgoing incoming).leaseIn? n j box) ∧
      (Vacant e.leaseIn? n → Vacant (e.settle id task' outgoing incoming).leaseIn? n) := by
    obtain hc | ⟨m, rfl, hflag, hp, -, -, rfl, -⟩ := ha.incoming_change hs.orderly.incoming.sound
    · rw [← Entity.leaseIn?_eq ht] at hc hbefore
      exact hs.incoming.of_ne hc (Entity.leaseIn?_settle ht) hbefore hafter
    · have hsame : (e.settle id none outgoing incoming).leaseIn? = e.leaseIn? := by
        funext j
        rw [Entity.leaseIn?_settle ht]
        split
        · rename_i hj
          rw [hj, Entity.leaseIn?_eq ht]
          rfl
        · rfl
      rw [hsame]
      refine ⟨fun htenant => ?_, fun hv => hv⟩
      have := hs.incoming.tenant_post hp htenant
      rwa [if_neg (Ne.symm (hpost rfl hflag))] at this
  refine ⟨?_, hkeep.2⟩
  rintro j task0 box ⟨hj, htenant⟩
  refine ⟨?_, by rw [Entity.incoming_settle]; exact hkeep.1 htenant⟩
  rw [Entity.task?_settle _ _ _ ht, if_neg]
  · exact hj
  · rintro rfl
    obtain ⟨l, hl, hn, -⟩ := htenant
    exact hbefore ((Entity.leaseIn?_eq ht).symm.trans hl) hn

/-- A task that has nothing of the other side leaves everything of it alone. -/
theorem keepsServer_settle (he : e' = e.settle id task' outgoing e.incoming)
    (ht : e.task? id = some task) (hbefore : incomingLease? task = none)
    (hafter : task'.bind incomingLease? = none) (n : Nat) : KeepsServer e e' n := by
  subst he
  have hleaseIn : (e.settle id task' outgoing e.incoming).leaseIn? = e.leaseIn? := by
    funext j
    rw [Entity.leaseIn?_settle ht]
    split
    · rename_i hj
      rw [hj, Entity.leaseIn?_eq ht, hbefore, hafter]
    · rfl
  refine ⟨fun {j x box} hb => ⟨?_, ?_⟩, fun hv => ?_⟩
  · rw [Entity.task?_settle _ _ _ ht, if_neg]
    · exact hb.1
    · rintro rfl
      obtain ⟨-, l, hl, -⟩ := hb
      rw [Entity.leaseIn?_eq ht, hbefore] at hl
      cases hl
  · rw [hleaseIn, Entity.incoming_settle]
    exact hb.2
  · rw [hleaseIn]
    exact hv

/-- A task that is new has nothing on any transaction. -/
theorem Steady.keeps_spawn (hs : Steady e) (hout : outgoingLease? task = none)
    (hin : incomingLease? task = none) (n : Nat) :
    KeepsClient e (e.spawn task) n ∧ KeepsServer e (e.spawn task) n := by
  have hleaseOut : (e.spawn task).leaseOut? = e.leaseOut? :=
    funext (hs.orderly.leaseOut?_spawn hout)
  have hleaseIn : (e.spawn task).leaseIn? = e.leaseIn? := funext (hs.orderly.leaseIn?_spawn hin)
  have htask {j : TaskId} {x : Task} (hj : e.task? j = some x) :
      (e.spawn task).task? j = some x := by
    rw [hs.orderly.task?_spawn, if_neg (Nat.ne_of_lt (hs.orderly.lt_started hj)), hj]
  refine ⟨⟨fun hc => ⟨htask hc.1, ?_⟩, fun hv => ?_⟩, fun hb => ⟨htask hb.1, ?_⟩, fun hv => ?_⟩
  · rw [hleaseOut]
    exact hc.2
  · rw [hleaseOut]
    exact hv
  · rw [hleaseIn]
    exact hb.2
  · rw [hleaseIn]
    exact hv

section

variable {service : Control.Service} (hs : Steady e)
  (ht : e.task? id = some (.receiving (.accepting service)))

include hs ht

/-- The task that goes on serving has the transaction of the one that accepted the request. -/
theorem Steady.server_handedOver (hb : Server e n id (.receiving (.accepting service)) box) :
    Server ((e.spawn (.serving (.accepted service))).remove id) n e.started
      (.serving (.accepted service)) box := by
  obtain ⟨-, l, hl, hn, hbox⟩ := hb
  rw [Entity.leaseIn?_eq ht] at hl
  refine ⟨by rw [hs.orderly.task?_handedOver ht, if_pos rfl], l, ?_, hn, hbox⟩
  rw [hs.orderly.leaseIn?_handedOver ht, if_pos rfl]
  exact hl

theorem Steady.keeps_handedOver :
    KeepsClient e ((e.spawn (.serving (.accepted service))).remove id) n ∧
      (service.lease.index ≠ n →
        KeepsServer e ((e.spawn (.serving (.accepted service))).remove id) n) := by
  have htask {j : TaskId} {x : Task} (hj : e.task? j = some x) (hne : j ≠ id) :
      ((e.spawn (.serving (.accepted service))).remove id).task? j = some x := by
    rw [hs.orderly.task?_handedOver ht, if_neg (Nat.ne_of_lt (hs.orderly.lt_started hj)),
      if_neg hne, hj]
  have hleaseOut : ((e.spawn (.serving (.accepted service))).remove id).leaseOut? = e.leaseOut? :=
    funext (hs.orderly.leaseOut?_handedOver ht)
  refine ⟨⟨fun hc => ⟨htask hc.1 ?_, ?_⟩, fun hv => ?_⟩,
    fun hindex => ⟨fun {j x box} hb => ?_, fun hv j l hj => ?_⟩⟩
  · rintro rfl
    have := hc.1
    rw [ht] at this
    cases this
  · rw [hleaseOut]
    exact hc.2
  · rw [hleaseOut]
    exact hv
  · obtain ⟨hx, l, hl, rfl, hbox⟩ := hb
    have hne : j ≠ id := by
      rintro rfl
      rw [Entity.leaseIn?_eq ht] at hl
      cases hl
      exact hindex rfl
    refine ⟨htask hx hne, l, ?_, rfl, hbox⟩
    rw [hs.orderly.leaseIn?_handedOver ht, if_neg (Nat.ne_of_lt (hs.orderly.lt_started hx)),
      if_neg hne]
    exact hl
  · rw [hs.orderly.leaseIn?_handedOver ht] at hj
    split at hj
    · cases hj
      exact hindex
    · split at hj
      · cases hj
      · exact hv hj

end

/-! ## The one task of a transaction -/

theorem Steady.client_of_lease (hs : Steady e) (ht : e.task? id = some (.sending phase))
    {lease : Lease} (hl : outgoingLease? (.sending phase) = some lease) :
    lease.index < transactionCount ∧
      Client e lease.index id phase (e.outgoing.pending lease) := by
  have hid : e.leaseOut? id = some lease := (Entity.leaseOut?_eq ht).trans hl
  exact ⟨hs.orderly.outgoing_length ▸ hs.outgoing.index_lt hid, ht, lease, hid, rfl, rfl⟩

theorem Steady.server_of_lease (hs : Steady e) (ht : e.task? id = some task) {lease : Lease}
    (hl : incomingLease? task = some lease) : lease.index < transactionCount ∧
      Server e lease.index id task (e.incoming.pending lease) := by
  have hid : e.leaseIn? id = some lease := (Entity.leaseIn?_eq ht).trans hl
  exact ⟨hs.orderly.incoming_length ▸ hs.incoming.index_lt hid, ht, lease, hid, rfl, rfl⟩

theorem Steady.client_eq (hs : Steady e) (hi : Client e n id phase mail) {phase' : Sending}
    {mail' : List Control.Message} (hj : Client e n j phase' mail') :
    j = id ∧ phase' = phase ∧ mail' = mail := by
  obtain ⟨rfl, rfl⟩ := hs.outgoing.eq hi.2 hj.2
  have := hi.1.symm.trans hj.1
  cases this
  exact ⟨rfl, rfl, rfl⟩

theorem Steady.server_eq (hs : Steady e) (hi : Server e n id task box) {task0 : Task}
    {box' : List Control.Message} (hj : Server e n j task0 box') :
    j = id ∧ task0 = task ∧ box' = box := by
  obtain ⟨rfl, rfl⟩ := hs.incoming.eq hi.2 hj.2
  have := hi.1.symm.trans hj.1
  cases this
  exact ⟨rfl, rfl, rfl⟩

/-! ## What a task does to its own transaction -/

/-- A task that goes on, and does nothing to its transaction. -/
theorem Client.keep {phase' : Sending} (hc : Client e n id phase mail)
    (he : e' = e.settle id (some (.sending phase')) e.outgoing incoming)
    (hsame : outgoingLease? (.sending phase') = outgoingLease? (.sending phase)) :
    Client e' n id phase' mail := by
  subst he
  obtain ⟨ht, l, hl, hn, hmail⟩ := hc
  refine ⟨by rw [Entity.task?_settle _ _ _ ht, if_pos rfl], l, ?_, hn, ?_⟩
  · rw [Entity.leaseOut?_settle ht, if_pos rfl, Option.bind_some, hsame, ← Entity.leaseOut?_eq ht, hl]
  · rw [Entity.outgoing_settle, hmail]

theorem Server.keep {task' : Task} (hb : Server e n id task box)
    (he : e' = e.settle id (some task') outgoing e.incoming)
    (hsame : incomingLease? task' = incomingLease? task) : Server e' n id task' box := by
  subst he
  obtain ⟨ht, l, hl, hn, hbox⟩ := hb
  refine ⟨by rw [Entity.task?_settle _ _ _ ht, if_pos rfl], l, ?_, hn, ?_⟩
  · rw [Entity.leaseIn?_settle ht, if_pos rfl, Option.bind_some, hsame, ← Entity.leaseIn?_eq ht, hl]
  · rw [Entity.incoming_settle, hbox]

/-- A task that takes the oldest message. -/
theorem Client.take {phase' : Sending} {lease : Lease} {m : Control.Message}
    (hc : Client e n id phase mail)
    (he : e' = e.settle id (some (.sending phase')) outgoing incoming)
    (hl : outgoingLease? (.sending phase) = some lease)
    (hsame : outgoingLease? (.sending phase') = some lease)
    (htake : e.outgoing.take? lease = some (m, outgoing)) :
    ∃ rest, mail = m :: rest ∧ Client e' n id phase' rest := by
  subst he
  obtain ⟨ht, htenant⟩ := hc
  obtain ⟨rest, hmail, hrest⟩ := htenant.take? ((Entity.leaseOut?_eq ht).trans hl) htake
    (g := (e.settle id (some (.sending phase')) outgoing incoming).leaseOut?)
    (by rw [Entity.leaseOut?_settle ht, if_pos rfl]; exact hsame)
  refine ⟨rest, hmail, by rw [Entity.task?_settle _ _ _ ht, if_pos rfl], ?_⟩
  rw [Entity.outgoing_settle]
  exact hrest

theorem Server.take {task' : Task} {lease : Lease} {m : Control.Message}
    (hb : Server e n id task box) (he : e' = e.settle id (some task') outgoing incoming)
    (hl : incomingLease? task = some lease) (hsame : incomingLease? task' = some lease)
    (htake : e.incoming.take? lease = some (m, incoming)) :
    ∃ rest, box = m :: rest ∧ Server e' n id task' rest := by
  subst he
  obtain ⟨ht, htenant⟩ := hb
  obtain ⟨rest, hbox, hrest⟩ := htenant.take? ((Entity.leaseIn?_eq ht).trans hl) htake
    (g := (e.settle id (some task') outgoing incoming).leaseIn?)
    (by rw [Entity.leaseIn?_settle ht, if_pos rfl]; exact hsame)
  refine ⟨rest, hbox, by rw [Entity.task?_settle _ _ _ ht, if_pos rfl], ?_⟩
  rw [Entity.incoming_settle]
  exact hrest

/-- A task that ends leaves its transaction vacant. -/
theorem Client.drop (hs : Steady e) (hc : Client e n id phase mail)
    (he : e' = e.settle id none outgoing incoming) : Vacant e'.leaseOut? n := by
  subst he
  exact hs.outgoing.vacant hc.2 fun j => Entity.leaseOut?_settle hc.1 j

theorem Server.drop (hs : Steady e) (hb : Server e n id task box)
    (he : e' = e.settle id none outgoing incoming) : Vacant e'.leaseIn? n := by
  subst he
  exact hs.incoming.vacant hb.2 fun j => Entity.leaseIn?_settle hb.1 j

/-- A task that takes a transaction finds it vacant. -/
theorem Steady.client_leased {phase' : Sending} {lease : Lease} (hs : Steady e)
    (he : e' = e.settle id (some (.sending phase')) outgoing incoming)
    (ht : e.task? id = some task) (hl : e.outgoing.lease? () = some (lease, outgoing))
    (hsame : outgoingLease? (.sending phase') = some lease) :
    Vacant e.leaseOut? lease.index ∧ lease.index < transactionCount ∧
      Client e' lease.index id phase' [] := by
  subst he
  have hleased := hs.orderly.outgoing.sound.leased_of_lease? hl
  have hlease : (e.settle id (some (.sending phase')) outgoing incoming).leaseOut? id =
      some lease := by
    rw [Entity.leaseOut?_settle ht, if_pos rfl]
    exact hsame
  obtain ⟨hv, htenant⟩ := hs.outgoing.tenant_of_leased hleased hlease
  refine ⟨hv, hs.orderly.outgoing_length ▸ hleased.index_lt, ?_, ?_⟩
  · rw [Entity.task?_settle _ _ _ ht, if_pos rfl]
  · rw [Entity.outgoing_settle]
    exact htenant

theorem Steady.server_leased {task' : Task} {lease : Lease} {index : Nat} (hs : Steady e)
    (he : e' = e.settle id (some task') outgoing incoming) (ht : e.task? id = some task)
    (hl : e.incoming.leaseAt? index () = some (lease, incoming))
    (hsame : incomingLease? task' = some lease) :
    lease.index = index ∧ Server e' index id task' [] := by
  subst he
  obtain ⟨hleased, rfl⟩ := hs.orderly.incoming.sound.leased_of_leaseAt? hl
  have hlease : (e.settle id (some task') outgoing incoming).leaseIn? id = some lease := by
    rw [Entity.leaseIn?_settle ht, if_pos rfl]
    exact hsame
  obtain ⟨-, htenant⟩ := hs.incoming.tenant_of_leased hleased hlease
  refine ⟨rfl, ?_, ?_⟩
  · rw [Entity.task?_settle _ _ _ ht, if_pos rfl]
  · rw [Entity.incoming_settle]
    exact htenant

/-- A message that comes in waits for the task that has its transaction. -/
theorem Steady.client_post {m : Control.Message} (hs : Steady e)
    (he : e' = e.settle j none outgoing incoming)
    (ht : e.task? j = some (.receiving (.arrived m))) (hp : e.outgoing.post n m = .ok outgoing)
    (hc : Client e n id phase mail) : Client e' n id phase (mail ++ [m]) := by
  subst he
  have hne : id ≠ j := by
    rintro rfl
    rw [hc.1] at ht
    cases ht
  obtain ⟨l, hl, hn, hmail⟩ := hs.outgoing.tenant_post hp hc.2
  refine ⟨?_, l, ?_, hn, ?_⟩
  · rw [Entity.task?_settle _ _ _ ht, if_neg hne]
    exact hc.1
  · rw [Entity.leaseOut?_settle ht, if_neg hne]
    exact hl
  · rw [Entity.outgoing_settle, hmail, if_pos rfl]

theorem Steady.server_post {m : Control.Message} (hs : Steady e)
    (he : e' = e.settle j none outgoing incoming)
    (ht : e.task? j = some (.receiving (.arrived m))) (hp : e.incoming.post n m = .ok incoming)
    (hb : Server e n id task box) : Server e' n id task (box ++ [m]) := by
  subst he
  have hne : id ≠ j := by
    rintro rfl
    obtain ⟨l, hl, -⟩ := hb.2
    rw [Entity.leaseIn?_eq ht] at hl
    cases hl
  obtain ⟨l, hl, hn, hbox⟩ := hs.incoming.tenant_post hp hb.2
  refine ⟨?_, l, ?_, hn, ?_⟩
  · rw [Entity.task?_settle _ _ _ ht, if_neg hne]
    exact hb.1
  · rw [Entity.leaseIn?_settle ht, if_neg hne]
    exact hl
  · rw [Entity.incoming_settle, hbox, if_pos rfl]

end

/-! ## Steps keep entities steady -/

namespace Steady

variable {e e' : Entity} {id : TaskId} {move : Move Input} {task : Task} {task' : Option Task}
  {outgoing incoming : Table Control.Message Unit} {events : List (Event Control.Message Result)}

theorem act (hs : Steady e) (hcalm : calm move = true) (ht : e.task? id = some task)
    (ha : Entity.Act e id move task task' outgoing incoming events) :
    Steady (e.settle id task' outgoing incoming) := by
  have horderly := hs.orderly.act ht ha
  refine ⟨horderly, ⟨horderly.outgoing, fun {j l} hj => ?_⟩,
    ⟨horderly.incoming, horderly.kept⟩, fun {j octets} hj => ?_, fun {j s} hj => ?_⟩
  · rw [Entity.leaseOut?_settle ht] at hj
    rw [Entity.outgoing_settle]
    split at hj
    · have hsame : outgoingLease? task = some l → e.outgoing.isReleased l = false :=
        fun hl => hs.outgoing.kept ((Entity.leaseOut?_eq ht).trans hl)
      cases ha with
      | opened hl | unwritable hl =>
        cases hj
        rw [(hs.orderly.outgoing.sound.leased_of_lease? hl).isReleased, if_pos rfl]
      | delivered htake hf | took htake hf =>
        rw [Option.bind_some, hf.lease] at hj
        cases hj
        rw [Table.isReleased_take? htake]
        exact hsame rfl
      | tookLate | tookNothing => exact absurd ht hs.unexpired
      | transmitted | concluded | lapsed | repeated | gaveUp | untransmitted | unconcluded |
        expired => exact hsame hj
      | _ => cases hj
    · rename_i hne
      rw [(hs.orderly.outgoing_of_ne ht ha hj hne).1]
      exact hs.outgoing.kept hj
  · rw [Entity.task?_settle _ _ _ ht] at hj
    split at hj
    · cases ha <;> cases hj
    · exact hs.unread hj
  · rw [Entity.task?_settle _ _ _ ht] at hj
    split at hj
    · cases ha with
      | lapsed _ hreleased =>
        have := hs.outgoing.kept (Entity.leaseOut?_eq ht)
        rw [hreleased] at this
        cases this
      | expired => cases hcalm
      | delivered _ hf | took _ hf | tookLate _ hf => cases hf <;> cases hj
      | _ => cases hj
    · exact hs.unexpired hj

theorem spawn (hs : Steady e) {task : Task} (hout : outgoingLease? task = none)
    (hin : incomingLease? task = none) (hread : ∀ octets, task ≠ .receiving (.octets octets))
    (hunexpired : ∀ s, task ≠ .sending (.expired s)) : Steady (e.spawn task) := by
  have horderly := hs.orderly.spawn hout hin
  have htask := hs.orderly.task?_spawn task
  refine ⟨horderly, ⟨horderly.outgoing, fun {j l} hj => ?_⟩, ⟨horderly.incoming, horderly.kept⟩,
    fun {j octets} hj => ?_, fun {j s} hj => ?_⟩
  · rw [hs.orderly.leaseOut?_spawn hout] at hj
    exact hs.outgoing.kept hj
  · rw [htask] at hj
    split at hj
    · exact hread _ (Option.some.inj hj)
    · exact hs.unread hj
  · rw [htask] at hj
    split at hj
    · exact hunexpired _ (Option.some.inj hj)
    · exact hs.unexpired hj

theorem handedOver (hs : Steady e) {service : Control.Service}
    (ht : e.task? id = some (.receiving (.accepting service))) :
    Steady ((e.spawn (.serving (.accepted service))).remove id) := by
  have horderly := hs.orderly.handedOver ht
  have htask := hs.orderly.task?_handedOver ht
  refine ⟨horderly, ⟨horderly.outgoing, fun {j l} hj => ?_⟩, ⟨horderly.incoming, horderly.kept⟩,
    fun {j octets} hj => ?_, fun {j s} hj => ?_⟩
  · rw [hs.orderly.leaseOut?_handedOver ht] at hj
    exact hs.outgoing.kept hj
  · rw [htask] at hj
    split at hj
    · cases hj
    · split at hj
      · cases hj
      · exact hs.unread hj
  · rw [htask] at hj
    split at hj
    · cases hj
    · split at hj
      · cases hj
      · exact hs.unexpired hj

theorem step (hs : Steady e) (hcalm : calm move = true) (hr : Entity.Rule e move e' events) :
    Steady e' := by
  cases hr with
  | start input =>
    cases input with
    | send m | receive m => exact hs.spawn rfl rfl (by rintro _ ⟨⟩) (by rintro _ ⟨⟩)
    | receiveOctets octets => cases hcalm
  | act ht ha => exact hs.act hcalm ht ha
  | handedOver ht => exact hs.handedOver ht
  | elapsed duration =>
    exact ⟨hs.orderly.step (.elapsed duration), hs.outgoing, hs.incoming, hs.unread, hs.unexpired⟩

end Steady

end ShortMessage.Link
