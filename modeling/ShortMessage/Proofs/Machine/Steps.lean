import ShortMessage.Proofs.Codec.Reads

/-!
# A machine that can go wrong

The codecs count in natural numbers and take lists apart, where nothing can go wrong.  A machine
counts in words and octets, subtracts, indexes and slices, and each of these steps may fail.  Here
are its steps; each stops with a `Trap` where it must not be taken, so that a computation that ends
without one took none of them wrongly.

* `Machine`, `Checked` — computations on a machine, without and with a `Fault` as their result, and
  `Checked.Gives`, what they run through to;
* `Scanner`, `Scanner.Follows` — reading on a machine, and the decoder it agrees with;
* `Printer`, `Printer.Writes` — writing to a buffer on a machine, and the octets that it adds.
-/

namespace ShortMessage

/-- What stops a machine. -/
inductive Trap where
  /-- An index behind the end. -/
  | index
  /-- A slice that begins or ends behind the end. -/
  | slice
  /-- A difference below zero. -/
  | underflow
  /-- A number that is too large for its type. -/
  | overflow
  /-- A number that is cut when it is stored in fewer bits. -/
  | loss
  deriving DecidableEq, Repr

/-- How large the words are that a machine counts in. -/
class Word where
  /-- The least number that a word does not hold. -/
  limit : Nat
  wide : 65536 ≤ limit

/-- Words of 64 bits. -/
abbrev wide : Word := ⟨18446744073709551616, by decide⟩

/-- A computation on a machine. -/
abbrev Machine := Except Trap

/-- A computation on a machine that can find a fault in what it works on. -/
abbrev Checked := ExceptT Fault Machine

/-- Reads off the front of the octets, on a machine. -/
abbrev Scanner := StateT Octets Checked

/-- Writes to the end of a buffer, on a machine; what was written before a fault stays there. -/
abbrev Printer := ExceptT Fault (StateT Octets Machine)

variable {α β : Type}

namespace Machine

/-! ## Steps -/

section

variable [Word]

/-- A number in a word. -/
def word (n : Nat) : Machine Nat := if n < Word.limit then .ok n else .error .overflow

/-- The sum of two words. -/
def add (a b : Nat) : Machine Nat := word (a + b)

/-- The product of two words. -/
def mul (a b : Nat) : Machine Nat := word (a * b)

end

/-- The difference of two words. -/
def sub (a b : Nat) : Machine Nat := if b ≤ a then .ok (a - b) else .error .underflow

/-- The quotient, rounded up. -/
def ceilDiv (a b : Nat) : Nat := (a + b - 1) / b

/-- A number stored in an octet. -/
def narrow (n : Nat) : Machine UInt8 := if n < 256 then .ok (UInt8.ofNat n) else .error .loss

/-- An octet stored in a signed one. -/
def signed (b : UInt8) : Machine Int8 := if b < 128 then .ok b.toInt8 else .error .loss

/-- The sum of two octets. -/
def addOctets (a b : UInt8) : Machine UInt8 :=
  if a.toNat + b.toNat < 256 then .ok (a + b) else .error .overflow

/-- The product of two octets. -/
def mulOctets (a b : UInt8) : Machine UInt8 :=
  if a.toNat * b.toNat < 256 then .ok (a * b) else .error .overflow

/-- The difference of two octets. -/
def subOctets (a b : UInt8) : Machine UInt8 := if b ≤ a then .ok (a - b) else .error .underflow

/-- The sum of two numbers of sixteen bits. -/
def addWide (a b : UInt16) : Machine UInt16 :=
  if a.toNat + b.toNat < 65536 then .ok (a + b) else .error .overflow

/-- The opposite of a signed octet. -/
def negate (z : Int8) : Machine Int8 := if z = -128 then .error .overflow else .ok (-z)

/-- The bits moved up; those that leave the octet are dropped. -/
def shiftUp (b : UInt8) (k : Nat) : Machine UInt8 :=
  if k < 8 then .ok (b <<< UInt8.ofNat k) else .error .overflow

/-- The bits moved down. -/
def shiftDown (b : UInt8) (k : Nat) : Machine UInt8 :=
  if k < 8 then .ok (b >>> UInt8.ofNat k) else .error .overflow

/-- The element at an index. -/
def get (s : List α) (i : Nat) : Machine α :=
  match s[i]? with
  | some a => .ok a
  | none => .error .index

/-- The list with another element at an index. -/
def set (s : List α) (i : Nat) (a : α) : Machine (List α) :=
  if i < s.length then .ok (s.set i a) else .error .index

/-- The slice from an index on. -/
def sliceFrom (s : List α) (i : Nat) : Machine (List α) :=
  if i ≤ s.length then .ok (s.drop i) else .error .slice

/-- The slice before an index. -/
def sliceTo (s : List α) (i : Nat) : Machine (List α) :=
  if i ≤ s.length then .ok (s.take i) else .error .slice

/-! ## Where the steps may be taken -/

section

variable [Word] {a b n i k : Nat} {s : List α} {x y : UInt8}

theorem word_of_lt (h : n < Word.limit) : word n = .ok n := if_pos h

/-- Numbers of sixteen bits fit every machine. -/
theorem word_eq (h : n < 65536) : word n = .ok n := if_pos (Nat.lt_of_lt_of_le h Word.wide)

theorem add_of_lt (h : a + b < Word.limit) : add a b = .ok (a + b) := word_of_lt h

theorem mul_of_lt (h : a * b < Word.limit) : mul a b = .ok (a * b) := word_of_lt h

theorem add_eq (h : a + b < 65536) : add a b = .ok (a + b) := word_eq h

theorem mul_eq (h : a * b < 65536) : mul a b = .ok (a * b) := word_eq h

omit [Word]

theorem sub_eq (h : b ≤ a) : sub a b = .ok (a - b) := if_pos h

theorem narrow_eq (h : n < 256) : narrow n = .ok (UInt8.ofNat n) := if_pos h

theorem shiftUp_eq (h : k < 8) : shiftUp x k = .ok (x <<< UInt8.ofNat k) := if_pos h

theorem shiftDown_eq (h : k < 8) : shiftDown x k = .ok (x >>> UInt8.ofNat k) := if_pos h

/-- An index is in bounds when it lies before the end. -/
theorem get_eq (h : i < s.length) : get s i = .ok s[i] := by
  rw [get, List.getElem?_eq_getElem h]

theorem set_eq (h : i < s.length) (a : α) : set s i a = .ok (s.set i a) := if_pos h

/-- A slice may be empty, but starts no later than at the end. -/
theorem sliceFrom_eq (h : i ≤ s.length) : sliceFrom s i = .ok (s.drop i) := if_pos h

theorem sliceTo_eq (h : i ≤ s.length) : sliceTo s i = .ok (s.take i) := if_pos h

end

/-- A step that is taken. -/
@[simp] theorem ok_bind (a : α) (f : α → Machine β) : (Except.ok a >>= f) = f a := rfl

end Machine

/-! ## Computations that can find a fault -/

namespace Checked

variable {c : Checked α} {f : α → Checked β} {r : Except Fault α} {g : α → Except Fault β}

/-- The computation runs through to this result. -/
def Gives (c : Checked α) (r : Except Fault α) : Prop := c.run = .ok r

/-- A result without a computation. -/
def ofExcept (r : Except Fault α) : Checked α := ExceptT.mk (.ok r)

theorem gives_pure (a : α) : Gives (pure a) (.ok a) := rfl

theorem gives_throw (fault : Fault) : Gives (throw fault : Checked α) (.error fault) := rfl

theorem gives_ofExcept (r : Except Fault α) : Gives (ofExcept r) r := rfl

/-- What comes second is computed only when the first ends well. -/
theorem Gives.bind (hc : Gives c r) (hf : ∀ a, r = .ok a → Gives (f a) (g a)) :
    Gives (c >>= f) (r >>= g) := by
  unfold Gives at *
  rw [ExceptT.run_bind, hc]
  cases r with
  | error fault => rfl
  | ok a => exact hf a rfl

/-- A result that is stored in another type. -/
theorem Gives.bind_map {γ : Type} {r : Except Fault γ} {h : γ → α} {g : γ → Except Fault β}
    (hc : Gives c (r.map h)) (hf : ∀ a, r = .ok a → Gives (f (h a)) (g a)) :
    Gives (c >>= f) (r >>= g) := by
  unfold Gives at *
  rw [ExceptT.run_bind, hc]
  cases r with
  | error fault => rfl
  | ok a => exact hf a rfl

theorem Gives.ok_bind {a : α} {r : Except Fault β} (hc : Gives c (.ok a)) (hf : Gives (f a) r) :
    Gives (c >>= f) r := by
  unfold Gives at *
  rw [ExceptT.run_bind, hc]
  exact hf

theorem Gives.error_bind {fault : Fault} (hc : Gives c (.error fault)) :
    Gives (c >>= f) (.error fault) := by
  unfold Gives at *
  rw [ExceptT.run_bind, hc]
  rfl

/-- A step of the machine that is taken. -/
theorem Gives.step {m : Machine α} {a : α} {r : Except Fault β} (hm : m = .ok a)
    (hf : Gives (f a) r) : Gives (liftM m >>= f) r := by
  subst hm
  exact hf

/-- A last step that is taken. -/
theorem gives_lift {m : Machine α} {a : α} (hm : m = .ok a) : Gives (liftM m) (.ok a) := by
  subst hm
  rfl

/-- Each branch need only be computed where its condition holds. -/
theorem gives_ite {p : Prop} [Decidable p] {c' : Checked α} {r' : Except Fault α}
    (h : p → Gives c r) (h' : ¬p → Gives c' r') :
    Gives (if p then c else c') (if p then r else r') := by
  split
  · exact h ‹_›
  · exact h' ‹_›

end Checked

/-! ## Reading -/

namespace Scanner

variable {m : Scanner α} {d : Decoder α} {f : α → Scanner β} {g : α → Decoder β}

/-- The machine runs through, and finds and leaves what the decoder does. -/
def Follows (m : Scanner α) (d : Decoder α) : Prop := ∀ s, Checked.Gives (m.run s) (d s)

theorem follows_pure (a : α) : Follows (pure a) (pure a) := fun _ => rfl

/-- Scanners are composed as the decoders that they follow. -/
theorem Follows.bind (hm : Follows m d) (hf : ∀ a, Follows (f a) (g a)) :
    Follows (m >>= f) (d >>= g) := by
  intro s
  rw [StateT.run_bind]
  exact (hm s).bind fun r _ => hf r.1 r.2

/-- What follows may use what is known of the value. -/
theorem Follows.bind_of {P : α → Prop} (hm : Follows m d) (hd : Decoder.Yields P d)
    (hf : ∀ a, P a → Follows (f a) (g a)) : Follows (m >>= f) (d >>= g) := by
  intro s
  rw [StateT.run_bind]
  exact (hm s).bind fun r hr => hf r.1 (hd _ _ _ hr) r.2

theorem Follows.map (hm : Follows m d) (h : α → β) : Follows (h <$> m) (h <$> d) := by
  rw [← bind_pure_comp, ← bind_pure_comp]
  exact hm.bind fun a => follows_pure (h a)

/-- A step of the machine that is taken. -/
theorem Follows.step {x : Machine α} {a : α} {d : Decoder β} (hx : x = .ok a)
    (hf : Follows (f a) d) : Follows (liftM x >>= f) d := by
  subst hx
  exact hf

/-- A computation without reading. -/
theorem Follows.check {c : Checked α} {r : Except Fault α} (hc : Checked.Gives c r)
    (hf : ∀ a, r = .ok a → Follows (f a) (g a)) :
    Follows (liftM c >>= f) (Decoder.ofExcept r >>= g) := by
  intro s
  rw [StateT.run_bind]
  show Checked.Gives ((do let a ← c; pure (a, s)) >>= _) _
  cases r with
  | error fault => exact Checked.Gives.error_bind hc.error_bind
  | ok a => exact Checked.Gives.ok_bind (hc.ok_bind (Checked.gives_pure (a, s))) (hf a rfl s)

/-- A last computation without reading. -/
theorem follows_lift {c : Checked α} {r : Except Fault α} (hc : Checked.Gives c r) :
    Follows (liftM c) (Decoder.ofExcept r) := by
  intro s
  show Checked.Gives (do let a ← c; pure (a, s)) (r.map fun a => (a, s))
  cases r with
  | error fault => exact hc.error_bind
  | ok a => exact hc.ok_bind rfl

/-- A run of octets has as many as were asked for. -/
theorem yields_octets (n : Nat) :
    Decoder.Yields (fun s : Octets => s.length = n) (Decoder.octets n) := by
  intro s raw rest h
  obtain ⟨t, -, -, hlength⟩ := Decoder.takes_octets _ _ _ _ h
  exact hlength

theorem follows_ite {p : Prop} [Decidable p] {m' : Scanner α} {d' : Decoder α}
    (h : p → Follows m d) (h' : ¬p → Follows m' d') :
    Follows (if p then m else m') (if p then d else d') := by
  split
  · exact h ‹_›
  · exact h' ‹_›

theorem follows_throw (fault : Fault) : Follows (throw fault : Scanner α) (Decoder.fail fault) :=
  fun _ => rfl

/-- Behind a fault nothing is read. -/
theorem follows_throw_bind (fault : Fault) : Follows (throw fault >>= f) (Decoder.fail fault >>= g) :=
  fun _ => rfl

/-! ### The readers that every field is made of -/

/-- The first octet, which must be there. -/
def first (s : Octets) : Checked (UInt8 × Octets) := do
  let b ← (Machine.get s 0 : Machine UInt8)
  return (b, s.drop 1)

/-- The first `n` octets, which must be there. -/
def firstOf (n : Nat) (s : Octets) : Checked (Octets × Octets) := do
  let t ← (Machine.sliceTo s n : Machine Octets)
  return (t, s.drop n)

/-- The next octet, if there is one. -/
def octet : Scanner UInt8 := do
  let s ← StateT.get
  if s.length < 1 then throw .incomplete else first

/-- The next `n` octets, if there are so many. -/
def octets (n : Nat) : Scanner Octets := do
  let s ← StateT.get
  if s.length < n then throw .incomplete else firstOf n

/-- The next octet, which stays to be read. -/
def peek : Scanner UInt8 := do
  match (← StateT.get).head? with
  | some b => return b
  | none => throw .incomplete

/-- As many octets as the octet in front of them says. -/
def block : Scanner Octets := do
  let length ← octet
  octets length.toNat

/-- How many octets are left. -/
def remaining : Scanner Nat := return (← StateT.get).length

/-- Reads one value that makes up all the octets. -/
def complete (m : Scanner α) (s : Octets) : Checked α := do
  let (a, rest) ← m.run s
  match rest.length with
  | 0 => return a
  | n => throw (.trailing n)

theorem follows_octet : Follows octet Decoder.octet := by
  intro s
  cases s <;> rfl

/-- Before octets are taken it is seen whether there are so many. -/
theorem follows_octets (n : Nat) : Follows (octets n) (Decoder.octets n) := by
  intro s
  show Checked.Gives ((if s.length < n then throw .incomplete else firstOf n : Scanner _).run s)
    (if s.length < n then .error .incomplete else .ok (s.take n, s.drop n))
  by_cases hlt : s.length < n
  · rw [if_pos hlt, if_pos hlt]
    exact Checked.gives_throw _
  · rw [if_neg hlt, if_neg hlt]
    exact Checked.Gives.step (Machine.sliceTo_eq (Nat.not_lt.1 hlt)) rfl

theorem follows_peek : Follows peek Decoder.peek := by
  intro s
  cases s <;> rfl

theorem follows_block : Follows block Decoder.block :=
  follows_octet.bind fun _ => follows_octets _

theorem follows_remaining : Follows remaining Decoder.remaining := fun _ => rfl

/-- That nothing is left over is checked by looking at what is left. -/
theorem Follows.complete (h : Follows m d) (s : Octets) :
    Checked.Gives (complete m s) (Decoder.complete d s) := by
  refine (h s).bind fun r _ => ?_
  obtain ⟨a, rest⟩ := r
  cases rest <;> rfl

end Scanner

/-! ## Writing -/

namespace Printer

variable {p : Printer Unit} {q : Unit → Printer Unit} {before s : Octets} {r : Except Fault Octets}

/-- Writes octets. -/
def put (s : Octets) : Printer Unit := ExceptT.mk fun buffer => .ok (.ok (), buffer ++ s)

/-- A computation that writes nothing. -/
def check (c : Checked α) : Printer α :=
  ExceptT.mk fun buffer => c.run.bind fun r => .ok (r, buffer)

/-- What is written to an empty buffer. -/
def toOctets (p : Printer Unit) : Checked Octets :=
  ExceptT.mk ((p.run.run []).bind fun r => .ok (r.1.map fun _ => r.2))

/-- A run that adds these octets to a buffer, or finds this fault. -/
def Ends (run : Machine (Except Fault Unit × Octets)) (buffer : Octets) :
    Except Fault Octets → Prop
  | .ok s => run = .ok (.ok (), buffer ++ s)
  | .error fault => ∃ left, run = .ok (.error fault, left)

/-- The machine runs through, and with what was written `before` it makes these octets, or finds
this fault. -/
def Writes (before : Octets) (p : Printer Unit) (r : Except Fault Octets) : Prop :=
  ∀ buffer, Ends (p.run.run (buffer ++ before)) buffer r

theorem writes_put (s : Octets) : Writes before (put s) (.ok (before ++ s)) := by
  intro buffer
  show _ = Except.ok (Except.ok (), buffer ++ (before ++ s))
  rw [← List.append_assoc]
  rfl

theorem writes_pure : Writes before (pure ()) (.ok before) := fun _ => rfl

theorem writes_throw (fault : Fault) : Writes before (throw fault) (.error fault) :=
  fun _ => ⟨_, rfl⟩

theorem writes_ite {c : Prop} [Decidable c] {p' : Printer Unit} {r' : Except Fault Octets}
    (h : c → Writes before p r) (h' : ¬c → Writes before p' r') :
    Writes before (if c then p else p') (if c then r else r') := by
  split
  · exact h ‹_›
  · exact h' ‹_›

theorem Writes.put (h : Writes (before ++ s) (q ()) r) : Writes before (put s >>= q) r := by
  intro buffer
  have hq := h buffer
  rw [← List.append_assoc] at hq
  exact hq

/-- A part of known octets. -/
theorem Writes.write (hp : Writes [] p (.ok s)) (hq : Writes (before ++ s) (q ()) r) :
    Writes before (p >>= q) r := by
  intro buffer
  have hrun := hp (buffer ++ before)
  have hrest := hq buffer
  rw [List.append_nil] at hrun
  rw [← List.append_assoc] at hrest
  rw [ExceptT.run_bind, StateT.run_bind, show p.run.run (buffer ++ before) = _ from hrun]
  exact hrest

/-- A check leaves the buffer as it is, whatever it finds. -/
theorem run_check {c : Checked α} {x : Except Fault α} (hc : Checked.Gives c x) (buffer : Octets) :
    (check c).run.run buffer = .ok (x, buffer) := by
  show Except.bind c.run _ = _
  rw [show c.run = .ok x from hc]
  rfl

theorem Writes.check {c : Checked α} {x : Except Fault α} {f : α → Printer Unit}
    {g : α → Except Fault Octets} (hc : Checked.Gives c x)
    (hf : ∀ a, x = .ok a → Writes before (f a) (g a)) :
    Writes before (check c >>= f) (x >>= g) := by
  intro buffer
  rw [ExceptT.run_bind, StateT.run_bind, run_check hc]
  cases x with
  | error fault => exact ⟨_, rfl⟩
  | ok a => exact hf a rfl buffer

/-- A step of the machine that is taken. -/
theorem Writes.step {x : Machine α} {a : α} {f : α → Printer Unit} (hx : x = .ok a)
    (hf : Writes before (f a) r) : Writes before (liftM x >>= f) r := by
  subst hx
  exact hf

/-- A part that is written behind what was written before. -/
theorem Writes.part {x : Except Fault Octets} {g : Octets → Except Fault Octets}
    (hp : Writes [] p x) (hq : ∀ a, x = .ok a → Writes (before ++ a) (q ()) (g a)) :
    Writes before (p >>= q) (x >>= g) := by
  intro buffer
  have hrun := hp (buffer ++ before)
  rw [List.append_nil] at hrun
  cases x with
  | error fault =>
    obtain ⟨left, hleft⟩ := hrun
    refine ⟨left, ?_⟩
    rw [ExceptT.run_bind, StateT.run_bind, hleft]
    rfl
  | ok a =>
    have hrest := hq a rfl buffer
    rw [← List.append_assoc] at hrest
    rw [ExceptT.run_bind, StateT.run_bind, show p.run.run (buffer ++ before) = _ from hrun]
    exact hrest

/-- The last part. -/
theorem Writes.last {x : Except Fault Octets} {g : Octets → Except Fault Octets}
    (hp : Writes [] p x) (hg : ∀ a, x = .ok a → g a = pure (before ++ a)) :
    Writes before p (x >>= g) := by
  intro buffer
  have hrun := hp (buffer ++ before)
  rw [List.append_nil] at hrun
  cases x with
  | error fault => exact hrun
  | ok a =>
    rw [show (Except.ok a >>= g) = g a from rfl, hg a rfl]
    show p.run.run (buffer ++ before) = .ok (.ok (), buffer ++ (before ++ a))
    rw [← List.append_assoc]
    exact hrun

theorem Writes.toOctets (h : Writes [] p r) : Checked.Gives (toOctets p) r := by
  have hrun := h []
  show (p.run.run []).bind _ = _
  cases r with
  | error fault =>
    obtain ⟨left, hleft⟩ := hrun
    rw [show p.run.run [] = .ok (.error fault, left) from hleft]
    rfl
  | ok s =>
    rw [show p.run.run [] = .ok (.ok (), s) from hrun]
    rfl

/-! ### Writing all or nothing -/

/-- The machine runs through, and adds these octets, or finds this fault with the buffer as it
was. -/
def WritesWhole (p : Printer Unit) (r : Except Fault Octets) : Prop :=
  ∀ buffer, p.run.run buffer = .ok (match r with
    | .ok s => (.ok (), buffer ++ s)
    | .error fault => (.error fault, buffer))

theorem WritesWhole.writes (h : WritesWhole p r) : Writes [] p r := by
  intro buffer
  rw [List.append_nil, h buffer]
  cases r with
  | error fault => exact ⟨buffer, rfl⟩
  | ok s => rfl

theorem writesWhole_put (s : Octets) : WritesWhole (put s) (.ok s) := fun _ => rfl

theorem writesWhole_throw_bind {f : α → Printer Unit} {g : α → Except Fault Octets}
    (fault : Fault) : WritesWhole (throw fault >>= f) (throw fault >>= g) := fun _ => rfl

theorem writesWhole_ite {c : Prop} [Decidable c] {p' : Printer Unit} {r' : Except Fault Octets}
    (h : c → WritesWhole p r) (h' : ¬c → WritesWhole p' r') :
    WritesWhole (if c then p else p') (if c then r else r') := by
  split
  · exact h ‹_›
  · exact h' ‹_›

/-- Nothing that follows may find a fault. -/
theorem WritesWhole.put {t : Octets} (h : WritesWhole (q ()) (.ok t)) :
    WritesWhole (put s >>= q) (.ok (s ++ t)) := by
  intro buffer
  show _ = Except.ok (Except.ok (), buffer ++ (s ++ t))
  rw [← List.append_assoc]
  exact h (buffer ++ s)

/-- A check may fail as long as nothing was written before it. -/
theorem WritesWhole.check {c : Checked α} {x : Except Fault α} {f : α → Printer Unit}
    {g : α → Except Fault Octets} (hc : Checked.Gives c x)
    (hf : ∀ a, x = .ok a → WritesWhole (f a) (g a)) :
    WritesWhole (check c >>= f) (x >>= g) := by
  intro buffer
  rw [ExceptT.run_bind, StateT.run_bind, run_check hc]
  cases x with
  | error fault => rfl
  | ok a => exact hf a rfl buffer

end Printer

end ShortMessage
