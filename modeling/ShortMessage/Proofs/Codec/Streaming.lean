import ShortMessage.Control.Message
import ShortMessage.Proofs.Codec.Reads

/-!
# Messages that arrive little by little

A receiver may try to read before all the octets are there.  A decoder is steady if more octets
change nothing once it has decided: it reads the same value and leaves what stands behind, or it
fails as before.  Only `Fault.incomplete` leaves a decision open.

* `Decoder.SteadyAt`, `Decoder.Steady` — a decoder that asks for nothing behind the octets it takes;
  whatever is made of steady decoders is steady (`SteadyAt.bind`);
* `Decoder.StreamsOn`, `Decoder.Streams` — what a receiver can rely on, which a steady decoder
  grants (`streamsOn_of_steadyAt`);
* `streams_messages` — the messages of the three layers, but for those that end in an optional part.
-/

namespace ShortMessage

namespace Decoder

variable {α β : Type} {d : Decoder α} {f : α → Decoder β} {p s : Octets}

/-- What the decoder decides on these octets stays decided when more of them come. -/
structure SteadyAt (d : Decoder α) (p : Octets) : Prop where
  /-- What is left stands behind what is read. -/
  suffix : ∀ {a rest}, d p = .ok (a, rest) → rest <:+ p
  append : ∀ s, d p ≠ .error .incomplete → d (p ++ s) = (d p).map fun r => (r.1, r.2 ++ s)

/-- The decoder asks for nothing behind the octets that it takes. -/
def Steady (d : Decoder α) : Prop := ∀ p, SteadyAt d p

/-! ## Whatever is made of steady decoders -/

/-- Only the first part is asked about these octets, since it may leave any of them. -/
theorem SteadyAt.bind (hd : SteadyAt d p) (hf : ∀ a, Steady (f a)) : SteadyAt (d >>= f) p := by
  constructor
  · intro b rest h
    rw [bind_apply] at h
    obtain ⟨⟨a, t⟩, ha, h⟩ := bind_eq_ok.1 h
    exact ((hf a t).suffix h).trans (hd.suffix ha)
  · intro s hdecided
    rw [bind_apply] at hdecided ⊢
    rw [bind_apply]
    cases hp : d p with
    | error fault =>
      have hfault : d p ≠ .error .incomplete := by
        intro h
        rw [h] at hdecided
        exact hdecided rfl
      rw [hd.append s hfault, hp]
      rfl
    | ok r =>
      obtain ⟨a, t⟩ := r
      rw [hp] at hdecided
      have hdone : d p ≠ .error .incomplete := by simp [hp]
      rw [hd.append s hdone, hp]
      exact (hf a t).append s hdecided

theorem Steady.bind (hd : Steady d) (hf : ∀ a, Steady (f a)) : Steady (d >>= f) :=
  fun p => (hd p).bind hf

theorem steady_pure (a : α) : Steady (pure a : Decoder α) := by
  intro p
  constructor
  · intro b rest h
    cases h
    exact List.suffix_rfl
  · intro s _
    rfl

theorem Steady.map (g : α → β) (hd : Steady d) : Steady (g <$> d) := by
  rw [← bind_pure_comp]
  exact hd.bind fun a => steady_pure (g a)

theorem steady_fail (fault : Fault) : Steady (fail fault : Decoder α) := by
  intro p
  constructor
  · intro a rest h
    cases h
  · intro s _
    rfl

/-- Behind a refusal nothing is read. -/
theorem steady_fail_bind (fault : Fault) (f : α → Decoder β) : Steady (fail fault >>= f) := by
  intro p
  constructor
  · intro a rest h
    cases h
  · intro s _
    rfl

theorem steady_ofExcept (r : Except Fault α) : Steady (ofExcept r) := by
  cases r with
  | error fault => exact steady_fail fault
  | ok a => exact steady_pure a

theorem steady_ite {c : Prop} [Decidable c] {d d' : Decoder α} (hd : Steady d) (hd' : Steady d') :
    Steady (if c then d else d') := by
  split
  · exact hd
  · exact hd'

theorem steady_octet : Steady octet := by
  intro p
  cases p with
  | nil => exact ⟨nofun, fun s h => absurd rfl h⟩
  | cons b p =>
    constructor
    · intro a rest h
      cases h
      exact List.suffix_cons b p
    · intro s _
      rfl

/-- An octet that is looked at stays, and more octets behind it change nothing. -/
theorem steady_peek : Steady peek := by
  intro p
  cases p with
  | nil => exact ⟨nofun, fun s h => absurd rfl h⟩
  | cons b p =>
    constructor
    · intro a rest h
      cases h
      exact List.suffix_rfl
    · intro s _
      rfl

/-- Missing octets are the only thing here that more of them can mend. -/
theorem steady_octets (n : Nat) : Steady (octets n) := by
  intro p
  by_cases hlt : p.length < n
  · constructor
    · intro a rest h
      rw [octets, if_pos hlt] at h
      cases h
    · intro s h
      exact absurd (if_pos hlt) h
  · constructor
    · intro a rest h
      rw [octets, if_neg hlt] at h
      cases h
      exact List.drop_suffix n p
    · intro s _
      have hle : n ≤ p.length := Nat.not_lt.1 hlt
      have hlt' : ¬(p ++ s).length < n := by simp; omega
      rw [octets, octets, if_neg hlt, if_neg hlt', List.take_append_of_le_length hle,
        List.drop_append_of_le_length hle]
      rfl

theorem steady_block : Steady block := steady_octet.bind fun _ => steady_octets _

/-! ## What a receiver can rely on -/

/-- A receiver of octets that begin in a certain way reads a message from any part of them that
holds it, from no shorter part, and whatever follows. -/
structure StreamsOn (begins : Octets → Prop) (d : Decoder α) : Prop where
  /-- What is read takes so many octets, whatever stands behind them, and no fewer. -/
  read : ∀ p a rest, begins p → d p = .ok (a, rest) → ∃ n ≤ p.length, rest = p.drop n ∧
    (∀ s, d (p ++ s) = .ok (a, (p ++ s).drop n)) ∧ ∀ m < n, d (p.take m) = .error .incomplete
  /-- What is refused stays refused. -/
  refused : ∀ p fault, begins p → d p = .error fault → fault ≠ .incomplete →
    ∀ s, d (p ++ s) = .error fault
  /-- A whole message with something behind it is refused for how much that is. -/
  trailing : ∀ p a, begins p → complete d p = .ok a →
    ∀ s ≠ [], complete d (p ++ s) = .error (.trailing s.length)

/-- The same of any octets. -/
def Streams (d : Decoder α) : Prop := StreamsOn (fun _ => True) d

/-- A part that ends inside the message is told to be incomplete, and not to be wrong. -/
theorem SteadyAt.incomplete_of_lt {a : α} {rest : Octets} {m : Nat} (hm : SteadyAt d (p.take m))
    (hread : d p = .ok (a, rest)) (hlt : m + rest.length < p.length) :
    d (p.take m) = .error .incomplete := by
  by_cases hdecided : d (p.take m) = .error .incomplete
  · exact hdecided
  exfalso
  have happend := hm.append (p.drop m) hdecided
  rw [List.take_append_drop, hread] at happend
  -- Had it been read from the shorter part, more would be left.
  cases htake : d (p.take m) with
  | error fault =>
    rw [htake] at happend
    cases happend
  | ok r =>
    rw [htake] at happend
    cases happend
    simp at hlt
    omega

/-- A part of octets that begin as asked for begins so too, and so is read alike. -/
theorem streamsOn_of_steadyAt {begins : Octets → Prop} (htake : ∀ p m, begins p → begins (p.take m))
    (h : ∀ p, begins p → SteadyAt d p) : StreamsOn begins d := by
  have hread : ∀ p a rest, begins p → d p = .ok (a, rest) → ∀ s, d (p ++ s) = .ok (a, rest ++ s) := by
    intro p a rest hp hread s
    have hdecided : d p ≠ .error .incomplete := by simp [hread]
    rw [(h p hp).append s hdecided, hread]
    rfl
  constructor
  · intro p a rest hp ha
    obtain ⟨t, rfl⟩ := (h p hp).suffix ha
    refine ⟨t.length, by simp, by simp, ?_, ?_⟩
    · intro s
      rw [hread _ _ _ hp ha s, List.append_assoc, List.drop_left]
    · intro m hm
      refine (h _ (htake _ m hp)).incomplete_of_lt ha ?_
      simp
      omega
  · intro p fault hp hfault hne s
    have hdecided : d p ≠ .error .incomplete := by simpa [hfault] using hne
    rw [(h p hp).append s hdecided, hfault]
    rfl
  · intro p a hp ha s hs
    obtain ⟨⟨b, rest⟩, hb, ha⟩ := bind_eq_ok.1 ha
    cases rest with
    | cons c rest => cases ha
    | nil =>
      simp only [complete, hread p b [] hp hb s]
      cases s with
      | nil => exact absurd rfl hs
      | cons c s => rfl

theorem Steady.streams (h : Steady d) : Streams d :=
  streamsOn_of_steadyAt (fun _ _ _ => trivial) fun p _ => h p

end Decoder

open Decoder

/-! ## Fields -/

theorem steady_dataCoding : Steady DataCoding.decoder := by
  refine steady_octet.bind fun b => ?_
  split
  · exact steady_pure _
  · exact steady_fail _

theorem steady_timestamp : Steady Timestamp.decoder := by
  refine (steady_octets _).bind fun s => ?_
  split
  · exact steady_ofExcept _
  · exact steady_fail _

theorem steady_enhancedValidity : Steady EnhancedValidity.decoder := by
  refine (steady_octets _).bind fun s => ?_
  split
  · refine steady_ite (steady_fail_bind _ _) ?_
    exact (steady_ofExcept _).bind fun _ => steady_pure _
  · exact steady_fail _

/-- Which form of period follows is known before its octets. -/
theorem steady_validity (format : UInt8) : Steady (ValidityPeriod.decoder format) := by
  unfold ValidityPeriod.decoder
  split
  · exact steady_pure _
  · exact steady_octet.bind fun _ => steady_pure _
  · exact steady_timestamp.bind fun _ => steady_pure _
  · exact steady_enhancedValidity.bind fun _ => steady_pure _

theorem steady_address : Steady Address.decoder := by
  refine steady_octet.bind fun length => steady_ite (steady_fail_bind _ _) ?_
  refine steady_octet.bind fun kind => (steady_octets _).bind fun raw => steady_ite ?_ ?_
  · exact (steady_ofExcept _).bind fun _ => steady_pure _
  · exact (steady_ofExcept _).bind fun _ => steady_pure _

theorem steady_relayAddress : Steady Address.relayDecoder := by
  refine steady_octet.bind fun length => steady_ite (steady_pure _) ?_
  refine steady_ite (steady_fail_bind _ _) ?_
  refine steady_octet.bind fun kind => (steady_octets _).bind fun raw => ?_
  exact (steady_ofExcept _).bind fun _ => steady_pure _

/-- User data is read as soon as all octets are there that its length counts. -/
theorem steady_userData (charset : CharacterSet) (hasHeader : Bool) (limit : Nat) :
    Steady (UserData.decoder charset hasHeader limit) := by
  refine steady_octet.bind fun length => steady_ite (steady_fail_bind _ _) ?_
  refine (steady_octets _).bind fun data => steady_ite ?_ ?_
  · exact (steady_ofExcept _).bind fun _ => (steady_ofExcept _).bind fun _ => steady_pure _
  · rw [pure_bind]
    exact (steady_ofExcept _).bind fun _ => steady_pure _

/-! ## Messages of the transfer layer -/

namespace Transfer

theorem Parameters.steady_field {α : Type} {d : Decoder α} (announced : Bool) (hd : Steady d) :
    Steady (fieldDecoder announced d) :=
  steady_ite (hd.map some) (steady_pure none)

/-- The indicator says which fields there are, so none is looked for in vain. -/
theorem Parameters.steady_fields (indicator : UInt8) (hasHeader : Bool) :
    Steady (fieldsDecoder indicator hasHeader) :=
  (steady_field _ steady_octet).bind fun _ => (steady_field _ steady_dataCoding).bind fun _ =>
    (steady_field _ (steady_userData _ _ _)).bind fun _ => steady_pure _

theorem Parameters.steady_indicator : Steady indicatorDecoder :=
  steady_octet.bind fun _ => steady_ite (steady_fail_bind _ _) (steady_pure _)

/-- The octet that tells a cause from an indicator is looked at, but never the one behind it. -/
theorem steady_failure : Steady failureDecoder :=
  steady_peek.bind fun _ => steady_ite (steady_octet.map some) (steady_pure none)

theorem steady_firstOctet (kind : Kind) : Steady (firstOctetDecoder kind) :=
  steady_octet.bind fun _ => steady_ite (steady_fail_bind _ _) (steady_pure _)

theorem steady_submit : Steady Submit.decoder :=
  (steady_firstOctet _).bind fun _ => steady_octet.bind fun _ => steady_address.bind fun _ =>
    steady_octet.bind fun _ => steady_dataCoding.bind fun _ => (steady_validity _).bind fun _ =>
      (steady_userData _ _ _).bind fun _ => steady_pure _

theorem steady_deliver : Steady Deliver.decoder :=
  (steady_firstOctet _).bind fun _ => steady_address.bind fun _ => steady_octet.bind fun _ =>
    steady_dataCoding.bind fun _ => steady_timestamp.bind fun _ =>
      (steady_userData _ _ _).bind fun _ => steady_pure _

theorem steady_command : Steady Command.decoder :=
  (steady_firstOctet _).bind fun _ => steady_octet.bind fun _ => steady_octet.bind fun _ =>
    steady_octet.bind fun _ => steady_octet.bind fun _ => steady_address.bind fun _ =>
      (steady_userData _ _ _).bind fun _ => steady_pure _

/-- Unlike a status report, a submit report always has its indicator. -/
theorem steady_submitReport : Steady SubmitReport.decoder :=
  (steady_firstOctet _).bind fun _ => steady_failure.bind fun _ =>
    Parameters.steady_indicator.bind fun _ => steady_timestamp.bind fun _ =>
      (Parameters.steady_fields _ _).bind fun _ => steady_pure _

theorem steady_deliverReport : Steady DeliverReport.decoder :=
  (steady_firstOctet _).bind fun _ => steady_failure.bind fun _ =>
    (Parameters.steady_indicator.bind fun _ => Parameters.steady_fields _ _).bind fun _ =>
      steady_pure _

end Transfer

/-! ## Messages of the relay layer -/

namespace Relay.Message

/-- The octets begin with the type of data or of a notice that memory is available, if there are
any. -/
def BeginsRequest (s : Octets) : Prop :=
  ∀ type ∈ s.head?, (∃ direction, type &&& 0x07 = typeFor dataType direction) ∨
    type &&& 0x07 = memoryAvailableType

/-- A message that is carried is behind its length, so that what it lacks stays lacking. -/
theorem steady_data (direction : Direction) : Steady (dataDecoder direction) := by
  have hrest : ∀ reference centre, Steady do
      let message ← carriedDecoder direction
      Decoder.ofExcept (checkData message)
      return Message.data reference centre message := by
    intro reference centre
    refine (steady_block.bind fun _ => steady_ofExcept _).bind fun _ => ?_
    exact (steady_ofExcept _).bind fun _ => steady_pure _
  refine steady_octet.bind fun reference => steady_relayAddress.bind fun originator =>
    steady_relayAddress.bind fun destination => ?_
  cases direction with
  | toCentre =>
    refine steady_ite (steady_fail_bind _ _) ?_
    cases destination with
    | none => exact steady_fail _
    | some centre => exact hrest reference centre
  | toMobile =>
    refine steady_ite (steady_fail_bind _ _) ?_
    cases originator with
    | none => exact steady_fail _
    | some centre => exact hrest reference centre

/-- The type alone tells that the end of the octets will not matter. -/
theorem steadyAt_decoder {p : Octets} (hp : BeginsRequest p) : SteadyAt decoder p := by
  cases p with
  | nil => exact ⟨nofun, fun s h => absurd rfl h⟩
  | cons type p =>
    -- The type of the first octet settles which decoder reads the rest.
    have hrest : ∀ {d : Decoder Message}, Steady d → (∀ p, decoder (type :: p) = d p) →
        SteadyAt decoder (type :: p) := by
      intro d hd heq
      constructor
      · intro a rest h
        rw [heq] at h
        exact ((hd p).suffix h).trans (List.suffix_cons type p)
      · intro s h
        rw [heq] at h
        rw [List.cons_append, heq, heq]
        exact (hd p).append s h
    rcases hp type rfl with ⟨direction, htype⟩ | htype
    · refine hrest (steady_data direction) fun p => ?_
      rw [decoder, bind_apply, octet, Except.bind]
      dsimp only
      rw [htype]
      cases direction <;> rfl
    · refine hrest (steady_octet.map Message.memoryAvailable) fun p => ?_
      rw [decoder, bind_apply, octet, Except.bind]
      dsimp only
      rw [htype]
      rfl

theorem streams_request : StreamsOn BeginsRequest decoder := by
  refine streamsOn_of_steadyAt (fun p m hp type htype => ?_) fun p hp => steadyAt_decoder hp
  cases p with
  | nil => simp at htype
  | cons b p =>
    cases m with
    | zero => simp at htype
    | succ m => exact hp type (by simpa using htype)

end Relay.Message

/-! ## Messages of the control layer -/

theorem Control.Message.steady_decoder : Steady Control.Message.decoder := by
  refine steady_octet.bind fun b => (steady_ofExcept _).bind fun t => steady_octet.bind fun type => ?_
  split
  · exact steady_block.bind fun _ => (steady_ofExcept _).bind fun _ => steady_pure _
  · exact steady_pure _
  · exact steady_octet.bind fun _ => steady_pure _
  · exact steady_fail _

/-- Messages of all three layers can be read while they arrive, of the relay layer the requests.
Whatever ends in a part that may be left out can not: then its end shows by the end of the octets. -/
theorem streams_messages :
    Streams Control.Message.decoder ∧ Streams Transfer.Submit.decoder ∧
      Streams Transfer.Deliver.decoder ∧ Streams Transfer.Command.decoder ∧
      Streams Transfer.SubmitReport.decoder ∧ Streams Transfer.DeliverReport.decoder ∧
      StreamsOn Relay.Message.BeginsRequest Relay.Message.decoder :=
  ⟨Control.Message.steady_decoder.streams, Transfer.steady_submit.streams,
    Transfer.steady_deliver.streams, Transfer.steady_command.streams,
    Transfer.steady_submitReport.streams, Transfer.steady_deliverReport.streams,
    Relay.Message.streams_request⟩

/-- An acknowledgement is read without the report that is on its way. -/
example : Relay.Message.decoder [0x02, 0x05] = .ok (.ack .toCentre 5 none, []) ∧
    Relay.Message.decoder [0x02, 0x05, 0x41] = .error .incomplete := ⟨rfl, rfl⟩

end ShortMessage
