import ShortMessage.Proofs.Codec.Relay

/-!
# Faults that are not about a type

An unknown type is a fault of its own kind, and both layers have types.  No field is to blame for
one: whatever a check or a decoder of a field fails for, it is something else (`Innocent`, `Sound`).
-/

namespace ShortMessage

open Decoder

/-- Is the fault that a type is unknown? -/
def Fault.namesType : Fault → Bool
  | .unknownType _ _ => true
  | _ => false

/-- Whatever a check fails for, it is no unknown type. -/
def Innocent {α : Type} (r : Except Fault α) : Prop :=
  ∀ fault, r = .error fault → fault.namesType = false

/-- Whatever reading fails for, it is no unknown type. -/
def Sound {α : Type} (d : Decoder α) : Prop :=
  ∀ s fault, d s = .error fault → fault.namesType = false

section

variable {α β : Type} {fault : Fault}

theorem innocent_ok (a : α) : Innocent (.ok a : Except Fault α) := nofun

theorem innocent_error (h : fault.namesType = false) :
    Innocent (.error fault : Except Fault α) := by
  rintro _ ⟨⟩
  exact h

/-- Two checks one after the other fail for nothing that neither of them fails for. -/
theorem Innocent.bind {r : Except Fault α} {f : α → Except Fault β} (hr : Innocent r)
    (hf : ∀ a, Innocent (f a)) : Innocent (r >>= f) := by
  cases r with
  | error fault =>
    rintro _ ⟨⟩
    exact hr fault rfl
  | ok a => exact hf a

theorem innocent_ite {c : Prop} [Decidable c] {r r' : Except Fault α} (h : Innocent r)
    (h' : Innocent r') : Innocent (if c then r else r') := by
  split
  · exact h
  · exact h'

/-- Reading fails at the first part, or behind it. -/
theorem Decoder.bind_eq_error {d : Decoder α} {f : α → Decoder β} {s : Octets} :
    (d >>= f) s = .error fault ↔
      d s = .error fault ∨ ∃ a t, d s = .ok (a, t) ∧ f a t = .error fault := by
  rw [bind_apply]
  exact bind_eq_fault.trans (or_congr_right Prod.exists)

/-- Two parts one behind the other are to blame for nothing that neither of them is to blame for. -/
theorem Sound.bind {d : Decoder α} {f : α → Decoder β} (hd : Sound d) (hf : ∀ a, Sound (f a)) :
    Sound (d >>= f) := by
  intro s fault h
  rcases bind_eq_error.1 h with h | ⟨a, t, -, h⟩
  · exact hd s fault h
  · exact hf a t fault h

theorem Sound.map {d : Decoder α} (g : α → β) (hd : Sound d) : Sound (g <$> d) := by
  intro s fault h
  refine hd s fault ?_
  change StateT.map g d s = _ at h
  unfold StateT.map at h
  cases hs : d s with
  | error fault' =>
    rw [hs] at h
    cases h
    rfl
  | ok p =>
    rw [hs] at h
    cases h

theorem sound_ite {c : Prop} [Decidable c] {d d' : Decoder α} (hd : Sound d) (hd' : Sound d') :
    Sound (if c then d else d') := by
  split
  · exact hd
  · exact hd'

theorem sound_pure (a : α) : Sound (pure a : Decoder α) := nofun

theorem sound_fail (h : fault.namesType = false) : Sound (fail fault : Decoder α) := by
  rintro _ _ ⟨⟩
  exact h

/-- Behind a refusal nothing is read. -/
theorem sound_fail_bind (h : fault.namesType = false) (f : α → Decoder β) :
    Sound (fail fault >>= f) := by
  rintro _ _ ⟨⟩
  exact h

theorem sound_ofExcept {r : Except Fault α} (h : Innocent r) : Sound (Decoder.ofExcept r) := by
  cases r with
  | error fault =>
    rintro _ _ ⟨⟩
    exact h fault rfl
  | ok a => exact nofun

/-- An octet can only be missing. -/
theorem sound_octet : Sound octet
  | [], _, h => by cases h; rfl
  | _ :: _, _, h => nomatch h

theorem sound_peek : Sound peek
  | [], _, h => by cases h; rfl
  | _ :: _, _, h => nomatch h

theorem sound_octets (n : Nat) : Sound (octets n) := by
  intro s fault h
  unfold octets at h
  split at h <;> cases h
  rfl

theorem sound_block : Sound block := sound_octet.bind fun _ => sound_octets _

/-- Looking at what is left never fails. -/
theorem sound_remaining : Sound remaining := nofun

end

/-- Behind a part that is not to blame a type may be unknown. -/
theorem Decoder.bind_fails {α β : Type} {fault : Fault} {d : Decoder α} {f : α → Decoder β}
    {s : Octets} (hd : Sound d) (hfault : fault.namesType = true) :
    (d >>= f) s = .error fault ↔ ∃ a t, d s = .ok (a, t) ∧ f a t = .error fault := by
  rw [bind_eq_error]
  refine or_iff_right fun h => ?_
  rw [hd s fault h] at hfault
  cases hfault

/-- Before a part that is not to blame a type may be unknown. -/
theorem Decoder.bind_fails_iff {α β : Type} {fault : Fault} {d : Decoder α} {f : α → Decoder β}
    {s : Octets} (hf : ∀ a, Sound (f a)) (hfault : fault.namesType = true) :
    (d >>= f) s = .error fault ↔ d s = .error fault := by
  rw [bind_eq_error]
  refine or_iff_left fun ⟨a, t, _, h⟩ => ?_
  rw [hf a t fault h] at hfault
  cases hfault

/-- That octets are left over is no unknown type. -/
theorem Decoder.complete_eq_error {α : Type} {fault : Fault} {d : Decoder α} {s : Octets}
    (hfault : fault.namesType = true) : complete d s = .error fault ↔ d s = .error fault := by
  unfold complete
  cases d s with
  | error fault' =>
    constructor <;>
    · rintro ⟨⟩
      rfl
  | ok p =>
    obtain ⟨a, _ | ⟨b, rest⟩⟩ := p
    · exact ⟨nofun, nofun⟩
    · refine ⟨?_, nofun⟩
      rintro ⟨⟩
      cases hfault

/-! ## No field is to blame -/

/-- Units can only be missing. -/
theorem innocent_unpack (s : Octets) (offset : UInt8) (count : Nat) :
    Innocent (Alphabet.unpack s offset count) := by
  unfold Alphabet.unpack
  dsimp only
  refine innocent_ite (innocent_error rfl) ?_
  split <;> exact innocent_ok _

/-- A half octet can only be one that stands for no digit. -/
theorem Digits.innocent_ofNibbles (ns : List Nat) : Innocent (ofNibbles ns) := by
  induction ns with
  | nil => exact innocent_ok _
  | cons n ns ih =>
    unfold ofNibbles
    split
    · exact innocent_error rfl
    · exact ih.bind fun _ => innocent_ok _

theorem Digits.innocent_unpackCount (s : Octets) (count : Nat) :
    Innocent (unpackCount s count) :=
  innocent_ite (innocent_error rfl) (innocent_ofNibbles _)

/-- All that can be wrong with a part of a time is its value. -/
theorem SemiOctets.innocent_read (part : ClockPart) (b : UInt8) : Innocent (read part b) := by
  unfold read
  split
  · exact innocent_ok _
  · exact innocent_error rfl

theorem Timestamp.innocent_checkPart (part : ClockPart) (low high value : Int) :
    Innocent (checkPart part low high value) :=
  innocent_ite (innocent_ok _) (innocent_error rfl)

theorem Timestamp.innocent_validate (t : Timestamp) : Innocent t.validate :=
  (innocent_checkPart _ _ _ _).bind fun _ => (innocent_checkPart _ _ _ _).bind fun _ =>
    (innocent_checkPart _ _ _ _).bind fun _ => (innocent_checkPart _ _ _ _).bind fun _ =>
      (innocent_checkPart _ _ _ _).bind fun _ => (innocent_checkPart _ _ _ _).bind fun _ =>
        innocent_checkPart _ _ _ _

theorem Timestamp.innocent_ofOctets (year month day hour minute second zone : UInt8) :
    Innocent (ofOctets year month day hour minute second zone) :=
  (SemiOctets.innocent_read _ _).bind fun _ => (SemiOctets.innocent_read _ _).bind fun _ =>
    (SemiOctets.innocent_read _ _).bind fun _ => (SemiOctets.innocent_read _ _).bind fun _ =>
      (SemiOctets.innocent_read _ _).bind fun _ => (SemiOctets.innocent_read _ _).bind fun _ =>
        (SemiOctets.innocent_read _ _).bind fun _ => (innocent_validate _).bind fun _ =>
          innocent_ok _

theorem sound_timestamp : Sound Timestamp.decoder := by
  refine (sound_octets _).bind fun s => ?_
  split
  · exact sound_ofExcept (Timestamp.innocent_ofOctets _ _ _ _ _ _ _)
  · exact sound_fail rfl

theorem EnhancedPeriod.innocent_ofOctets (format first second third : UInt8) :
    Innocent (ofOctets format first second third) := by
  unfold ofOctets
  split
  · exact innocent_ok _
  · exact innocent_ok _
  · exact innocent_ok _
  · exact (SemiOctets.innocent_read _ _).bind fun _ => (SemiOctets.innocent_read _ _).bind fun _ =>
      (SemiOctets.innocent_read _ _).bind fun _ => innocent_ite (innocent_ok _) (innocent_error rfl)
  · exact innocent_error rfl

/-- A period is as innocent in each format as the time or the octets that it is made of. -/
theorem sound_validity (format : UInt8) : Sound (ValidityPeriod.decoder format) := by
  have henhanced : Sound EnhancedValidity.decoder := by
    refine (sound_octets _).bind fun s => ?_
    split
    · refine sound_ite ((sound_fail rfl).bind fun _ => ?_) ?_
      all_goals
        exact (sound_ofExcept (EnhancedPeriod.innocent_ofOctets _ _ _ _)).bind fun _ => sound_pure _
    · exact sound_fail rfl
  unfold ValidityPeriod.decoder
  split
  · exact sound_pure _
  · exact sound_octet.bind fun _ => sound_pure _
  · exact sound_timestamp.bind fun _ => sound_pure _
  · exact henhanced.bind fun _ => sound_pure _

theorem sound_dataCoding : Sound DataCoding.decoder := by
  refine sound_octet.bind fun b => ?_
  split
  · exact sound_pure _
  · exact sound_fail rfl

/-- An address can be wrong in many ways, but it has no type. -/
theorem Address.sound_address : Sound decoder := by
  refine sound_octet.bind fun length => sound_ite (sound_fail_bind rfl _) ?_
  refine sound_octet.bind fun kind => (sound_octets _).bind fun raw => sound_ite ?_ ?_
  · exact (sound_ofExcept (innocent_unpack _ _ _)).bind fun _ => sound_pure _
  · exact (sound_ofExcept (Digits.innocent_unpackCount _ _)).bind fun _ => sound_pure _

theorem Address.sound_relayAddress : Sound relayDecoder := by
  refine sound_octet.bind fun length => sound_ite (sound_pure _) ?_
  refine sound_ite (sound_fail_bind rfl _) ?_
  refine sound_octet.bind fun kind => (sound_octets _).bind fun raw => ?_
  exact (sound_ofExcept (Digits.innocent_unpackCount _ _)).bind fun _ => sound_pure _

/-! ## User data -/

theorem sound_element : Sound Element.decoder :=
  sound_octet.bind fun _ => sound_block.bind fun _ => sound_pure _

theorem Header.innocent_ofOctets (s : Octets) : Innocent (ofOctets s) := by
  fun_induction ofOctets s with
  | case1 s hs => exact innocent_ok _
  | case2 s hs fault hfault => exact innocent_error (sound_element _ _ hfault)
  | case3 s hs e rest hread ih => exact ih.bind fun _ => innocent_ok _

namespace UserData

theorem innocent_readHeader (data : Octets) : Innocent (readHeader data) := by
  unfold readHeader
  split
  · exact innocent_error rfl
  · split
    · exact innocent_error rfl
    · exact (Header.innocent_ofOctets _).bind fun _ => innocent_ok _

theorem innocent_readText (charset : CharacterSet) (length header : Nat) (body : Octets) :
    Innocent (readText charset length header body) := by
  cases charset with
  | gsm7 =>
    exact innocent_ite (innocent_error rfl)
      ((innocent_unpack _ _ _).bind fun _ => innocent_ok _)
  | eightBit => exact innocent_ok _
  | ucs2 => exact innocent_ite (innocent_error rfl) (innocent_ok _)

/-- User data can be too long, cut off or badly written, but it has no type. -/
theorem sound_userData (charset : CharacterSet) (hasHeader : Bool) (limit : Nat) :
    Sound (decoder charset hasHeader limit) := by
  refine sound_octet.bind fun length => sound_ite (sound_fail_bind rfl _) ?_
  refine (sound_octets _).bind fun data => sound_ite ?_ ?_
  · exact (sound_ofExcept (innocent_readHeader _)).bind fun _ =>
      (sound_ofExcept (innocent_readText _ _ _ _)).bind fun _ => sound_pure _
  · rw [pure_bind]
    exact (sound_ofExcept (innocent_readText _ _ _ _)).bind fun _ => sound_pure _

end UserData

end ShortMessage
