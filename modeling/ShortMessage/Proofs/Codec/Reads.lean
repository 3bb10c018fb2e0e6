import ShortMessage.Wire.Bits
import ShortMessage.Wire.Decoder

/-!
# What a decoder reads

`Decoder.Reads d s a` says that the decoder `d` takes exactly the octets `s` for the value `a`,
whatever stands behind them; `Decoder.ReadsAll d s a` says the same when nothing stands behind
them, which is all that can be said of a decoder that asks how many octets are left.

* `Reads.bind`, `Reads.bind_all` — what is read by one decoder after another;
* `reads_octet`, `reads_octets`, `reads_block` — the readers that every field is made of;
* `Decoder.Yields` — what every value has that is read;
* `Decoder.Takes` — how every value that is read relates to the octets taken for it;
* `decidableForallOctet` — what holds of all octets can be decided.
-/

namespace ShortMessage

/-- What holds of the 256 octets can be decided. -/
instance decidableForallOctet (P : UInt8 → Prop) [DecidablePred P] : Decidable (∀ b, P b) :=
  decidable_of_iff (∀ i : Fin 256, P (UInt8.ofFin i))
    ⟨fun h b => h b.toFin, fun h i => h (UInt8.ofFin i)⟩

/-- What holds of the 256 signed octets can be decided. -/
instance decidableForallSigned (P : Int8 → Prop) [DecidablePred P] : Decidable (∀ z, P z) :=
  decidable_of_iff (∀ b : UInt8, P ⟨b⟩) ⟨fun h z => h z.toUInt8, fun h b => h ⟨b⟩⟩

/-- A result comes from the result of the first part. -/
theorem bind_eq_ok {ε α β : Type} {x : Except ε α} {f : α → Except ε β} {b : β} :
    (x >>= f) = .ok b ↔ ∃ a, x = .ok a ∧ f a = .ok b := by
  cases x with
  | error fault =>
    constructor
    · rintro ⟨⟩
    · rintro ⟨a, ⟨⟩, -⟩
  | ok a =>
    constructor
    · intro h
      exact ⟨a, rfl, h⟩
    · rintro ⟨_, ⟨⟩, h⟩
      exact h

/-- A fault is that of the first part, or that of the second behind a result of the first. -/
theorem bind_eq_fault {ε α β : Type} {x : Except ε α} {f : α → Except ε β} {e : ε} :
    (x >>= f) = .error e ↔ x = .error e ∨ ∃ a, x = .ok a ∧ f a = .error e := by
  cases x with
  | error e' =>
    constructor
    · rintro ⟨⟩
      exact .inl rfl
    · rintro (⟨⟨⟩⟩ | ⟨a, ⟨⟩, -⟩)
      rfl
  | ok a =>
    constructor
    · intro h
      exact .inr ⟨a, rfl, h⟩
    · rintro (⟨⟨⟩⟩ | ⟨_, ⟨⟩, h⟩)
      exact h

theorem pure_eq_ok {ε α : Type} {a b : α} : (pure a : Except ε α) = .ok b ↔ b = a :=
  ⟨fun h => (Except.ok.inj h).symm, fun h => h ▸ rfl⟩

namespace Decoder

variable {α β : Type} {d : Decoder α} {f : α → Decoder β} {s t : Octets} {a : α} {b : β}

/-- The decoder takes these octets for this value, whatever stands behind them. -/
def Reads (d : Decoder α) (s : Octets) (a : α) : Prop := ∀ rest, d (s ++ rest) = .ok (a, rest)

/-- The decoder takes these octets for this value when nothing stands behind them. -/
def ReadsAll (d : Decoder α) (s : Octets) (a : α) : Prop := d s = .ok (a, [])

theorem Reads.all (h : Reads d s a) : ReadsAll d s a := by
  have := h []
  rwa [List.append_nil] at this

theorem bind_apply (d : Decoder α) (f : α → Decoder β) (s : Octets) :
    (d >>= f) s = (d s).bind fun x => f x.1 x.2 := by
  show StateT.bind d f s = _
  unfold StateT.bind
  rfl

theorem Reads.bind (hd : Reads d s a) (hf : Reads (f a) t b) : Reads (d >>= f) (s ++ t) b := by
  intro rest
  rw [bind_apply, List.append_assoc, hd]
  exact hf rest

theorem Reads.bind_all (hd : Reads d s a) (hf : ReadsAll (f a) t b) :
    ReadsAll (d >>= f) (s ++ t) b := by
  unfold ReadsAll
  rw [bind_apply, hd]
  exact hf

theorem Reads.last_all (hd : Reads d s a) (hf : ReadsAll (f a) [] b) : ReadsAll (d >>= f) s b := by
  have := Reads.bind_all hd hf
  rwa [List.append_nil] at this

theorem ReadsAll.last (hd : ReadsAll d s a) (hf : ReadsAll (f a) [] b) :
    ReadsAll (d >>= f) s b := by
  unfold ReadsAll at hd
  rw [ReadsAll, bind_apply, hd]
  exact hf

/-- A step behind which nothing is read. -/
theorem Reads.last (hd : Reads d s a) (hf : Reads (f a) [] b) : Reads (d >>= f) s b := by
  have := Reads.bind hd hf
  rwa [List.append_nil] at this

/-- A way that is taken. -/
theorem Reads.when {c : Prop} [Decidable c] {k : Decoder α} (hc : c) (hd : Reads d s a) :
    Reads (if c then d else k) s a := by
  rw [if_pos hc]
  exact hd

/-- A way that is not taken. -/
theorem Reads.unless {c : Prop} [Decidable c] {k : Decoder α} (hc : ¬c) (hd : Reads d s a) :
    Reads (if c then k else d) s a := by
  rw [if_neg hc]
  exact hd

theorem ReadsAll.when {c : Prop} [Decidable c] {k : Decoder α} (hc : c) (hd : ReadsAll d s a) :
    ReadsAll (if c then d else k) s a := by
  rw [if_pos hc]
  exact hd

theorem ReadsAll.unless {c : Prop} [Decidable c] {k : Decoder α} (hc : ¬c) (hd : ReadsAll d s a) :
    ReadsAll (if c then k else d) s a := by
  rw [if_neg hc]
  exact hd

theorem reads_pure (a : α) : Reads (pure a) [] a := fun _ => rfl

theorem reads_pure_of_eq {a b : α} (h : a = b) : Reads (pure a) [] b := h ▸ reads_pure a

theorem Reads.map (g : α → β) (hd : Reads d s a) : Reads (g <$> d) s (g a) := by
  intro rest
  show StateT.map g d (s ++ rest) = _
  simp only [StateT.map, hd rest]
  rfl

theorem ReadsAll.map (g : α → β) (hd : ReadsAll d s a) : ReadsAll (g <$> d) s (g a) := by
  unfold ReadsAll at *
  show StateT.map g d s = _
  simp only [StateT.map, hd]
  rfl

/-- A message that makes up all the octets. -/
theorem ReadsAll.complete (h : ReadsAll d s a) : complete d s = .ok a := by
  unfold ReadsAll at h
  simp only [Decoder.complete, h]
  rfl

/-! ## The readers of the fields -/

theorem reads_octet (b : UInt8) : Reads octet [b] b := fun _ => rfl

theorem reads_octets {n : Nat} (hn : s.length = n) : Reads (octets n) s s := by
  intro rest
  subst hn
  simp [octets]

/-- A run of octets behind its length. -/
theorem reads_block (h : s.length < 256) : Reads block (UInt8.ofNat s.length :: s) s := by
  have hlength : (UInt8.ofNat s.length).toNat = s.length := by
    simp [UInt8.toNat_ofNat', Nat.mod_eq_of_lt h]
  refine Reads.bind (reads_octet _) ?_
  rw [hlength]
  exact reads_octets rfl

theorem reads_ofExcept {r : Except Fault α} (h : r = .ok a) : Reads (ofExcept r) [] a := by
  intro rest
  rw [h]
  rfl

/-- A look at the next octet. -/
theorem Reads.peek {x : UInt8} {f : UInt8 → Decoder β} (h : Reads (f x) (x :: s) b) :
    Reads (Decoder.peek >>= f) (x :: s) b := fun rest => h rest

theorem ReadsAll.peek {x : UInt8} {f : UInt8 → Decoder β} (h : ReadsAll (f x) (x :: s) b) :
    ReadsAll (Decoder.peek >>= f) (x :: s) b := h

/-- A look at how many octets are left. -/
theorem ReadsAll.remaining {f : Nat → Decoder β} (h : ReadsAll (f s.length) s b) :
    ReadsAll (Decoder.remaining >>= f) s b := h

/-- A value behind its length. -/
theorem lengthPrefixed_eq_ok {field : String} {value : Octets} :
    lengthPrefixed field value = .ok s ↔
      value.length < 256 ∧ s = UInt8.ofNat value.length :: value := by
  unfold lengthPrefixed
  split
  · rename_i hlt
    exact ⟨fun h => ⟨hlt, (Except.ok.inj h).symm⟩, fun h => h.2 ▸ rfl⟩
  · rename_i hlt
    exact ⟨nofun, fun h => absurd h.1 hlt⟩

/-! ## What every value has that is read -/

/-- Whatever is read has this property. -/
def Yields (P : α → Prop) (d : Decoder α) : Prop := ∀ s a rest, d s = .ok (a, rest) → P a

section

variable {P : α → Prop} {Q : β → Prop} {d : Decoder β} {f : β → Decoder α}

theorem Yields.bind (hd : Yields Q d) (hf : ∀ b, Q b → Yields P (f b)) : Yields P (d >>= f) := by
  intro s a rest h
  rw [bind_apply] at h
  obtain ⟨⟨b, t⟩, hb, hrest⟩ := bind_eq_ok.1 h
  exact hf b (hd _ _ _ hb) _ _ _ hrest

/-- It is enough that the rest sees to it. -/
theorem yields_of_rest (hf : ∀ b, Yields P (f b)) : Yields P (d >>= f) := by
  have hd : Yields (fun _ => True) d := fun _ _ _ _ => trivial
  exact hd.bind fun b _ => hf b

theorem yields_fail (fault : Fault) : Yields P (fail fault) := by
  intro s a rest h
  cases h

theorem yields_pure {a : α} (ha : P a) : Yields P (pure a) := by
  intro s a' rest h
  cases h
  exact ha

theorem yields_ofExcept {r : Except Fault α} (hr : ∀ a, r = .ok a → P a) :
    Yields P (ofExcept r) := by
  intro s a rest h
  cases r with
  | error fault => cases h
  | ok a' =>
    cases h
    exact hr _ rfl

theorem Yields.complete (hd : Yields Q d) {s : Octets} {b : β} (h : Decoder.complete d s = .ok b) :
    Q b := by
  obtain ⟨⟨b', rest⟩, hread, h⟩ := bind_eq_ok.1 h
  obtain ⟨_, -, h⟩ := bind_eq_ok.1 h
  cases h
  exact hd _ _ _ hread

end

/-! ## What is taken for a value -/

/-- Whatever is read, this relation holds between it and the octets taken for it. -/
def Takes (P : α → Octets → Prop) (d : Decoder α) : Prop :=
  ∀ s a rest, d s = .ok (a, rest) → ∃ t, s = t ++ rest ∧ P a t

section

variable {P : α → Octets → Prop} {Q : β → Octets → Prop} {d : Decoder β} {f : β → Decoder α}

theorem Takes.bind (hd : Takes Q d)
    (hf : ∀ b t, Q b t → Takes (fun a t' => P a (t ++ t')) (f b)) : Takes P (d >>= f) := by
  intro s a rest h
  rw [bind_apply] at h
  obtain ⟨⟨b, s'⟩, hb, hrest⟩ := bind_eq_ok.1 h
  obtain ⟨t, rfl, hQ⟩ := hd _ _ _ hb
  obtain ⟨t', rfl, hP⟩ := hf b t hQ _ _ _ hrest
  exact ⟨t ++ t', (List.append_assoc ..).symm, hP⟩

theorem Takes.mono (hd : Takes Q d) {Q' : β → Octets → Prop} (h : ∀ b t, Q b t → Q' b t) :
    Takes Q' d := by
  intro s b rest hb
  obtain ⟨t, ht, hQ⟩ := hd s b rest hb
  exact ⟨t, ht, h b t hQ⟩

/-- A way that is taken or not. -/
theorem takes_ite {c : Prop} [Decidable c] {d d' : Decoder β} (hd : c → Takes Q d)
    (hd' : ¬c → Takes Q d') : Takes Q (if c then d else d') := by
  split
  · exact hd ‹_›
  · exact hd' ‹_›

theorem takes_pure {b : β} (h : Q b []) : Takes Q (pure b) := by
  intro s b' rest hb
  cases hb
  exact ⟨[], rfl, h⟩

theorem takes_fail (fault : Fault) : Takes Q (fail fault) := by
  intro s b rest h
  cases h

/-- Behind a refusal nothing is read. -/
theorem takes_fail_bind (fault : Fault) (f : β → Decoder α) : Takes P (fail fault >>= f) := by
  intro s a rest h
  cases h

theorem takes_map {g : β → α} (hd : Takes (fun b t => P (g b) t) d) : Takes P (g <$> d) := by
  intro s a rest h
  change StateT.map g d s = _ at h
  obtain ⟨⟨b, s'⟩, hb, h⟩ := bind_eq_ok.1 h
  cases h
  exact hd _ _ _ hb

theorem takes_ofExcept (r : Except Fault β) :
    Takes (fun b t => r = .ok b ∧ t = []) (ofExcept r) := by
  intro s b rest h
  cases r with
  | error fault => cases h
  | ok b' =>
    cases h
    exact ⟨[], rfl, rfl, rfl⟩

theorem takes_octet : Takes (fun b t => t = [b]) octet := by
  intro s b rest h
  cases s with
  | nil => cases h
  | cons c s =>
    cases h
    exact ⟨[b], rfl, rfl⟩

theorem takes_octets (n : Nat) : Takes (fun s t => t = s ∧ s.length = n) (octets n) := by
  intro s a rest h
  unfold octets at h
  split at h
  · cases h
  · cases h
    exact ⟨s.take n, (List.take_append_drop n s).symm, rfl, List.length_take_of_le (by omega)⟩

theorem takes_block :
    Takes (fun s t => s.length < 256 ∧ t = UInt8.ofNat s.length :: s) block := by
  refine takes_octet.bind fun length t ht => ?_
  subst ht
  refine (takes_octets _).mono fun s t ht => ?_
  obtain ⟨rfl, hlength⟩ := ht
  refine ⟨hlength ▸ length.toNat_lt, ?_⟩
  rw [hlength, UInt8.ofNat_toNat]
  rfl

/-- Looking at the octets takes none of them. -/
theorem takes_peek : Takes (fun _ t => t = []) peek := by
  intro s b rest h
  cases s with
  | nil => cases h
  | cons c s =>
    cases h
    exact ⟨[], rfl, rfl⟩

theorem takes_remaining : Takes (fun _ t => t = []) remaining := by
  intro s n rest h
  cases h
  exact ⟨[], rfl, rfl⟩

theorem Takes.complete (hd : Takes Q d) {s : Octets} {b : β} (h : Decoder.complete d s = .ok b) :
    Q b s := by
  obtain ⟨⟨b', rest⟩, hread, h⟩ := bind_eq_ok.1 h
  obtain ⟨_, hfinish, h⟩ := bind_eq_ok.1 h
  cases h
  obtain ⟨t, rfl, hQ⟩ := hd _ _ _ hread
  cases rest with
  | nil => rwa [List.append_nil]
  | cons c rest => cases hfinish

end

end Decoder

end ShortMessage
