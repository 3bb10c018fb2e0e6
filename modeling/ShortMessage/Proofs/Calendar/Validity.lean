import Mathlib.Tactic.SplitIfs
import ShortMessage.Proofs.Calendar.Timestamp
import ShortMessage.Validity

/-!
# Which form a period gets, and what its readers make of it

The relative octet stands for the 256 periods of the table (`Tabled`); `relativeOctet?` finds the
octet of each of them and of nothing else (`relativeTable_exact`).  `Suits` lists the forms that a
period of at least a second may get and when; `select` picks one of them (`select_cases`).  The two
readers of a period agree with each other and with the clock: the seconds that are left are those
until the message expires (`expiry?_of_secondsAt?`).
-/

namespace ShortMessage

/-! ## The relative octet -/

namespace Validity

variable {step low high seconds : Nat} {b : UInt8}

theorem isSteps_iff (hstep : 0 < step) : isSteps step low high seconds = true ↔
    ∃ k, low ≤ k ∧ k ≤ high ∧ seconds = k * step := by
  unfold isSteps
  simp only [Bool.and_eq_true, decide_eq_true_eq]
  constructor
  · rintro ⟨⟨hmod, hlow⟩, hhigh⟩
    exact ⟨seconds / step, hlow, hhigh, (Nat.div_mul_cancel (Nat.dvd_of_mod_eq_zero hmod)).symm⟩
  · rintro ⟨k, hlow, hhigh, rfl⟩
    rw [Nat.mul_mod_left, Nat.mul_div_cancel _ hstep]
    exact ⟨⟨rfl, hlow⟩, hhigh⟩

theorem relativeSeconds_ofNat {n : Nat} (h : n < 256) : relativeSeconds (UInt8.ofNat n) =
    if n ≤ 143 then (n + 1) * 5 * minute
    else if n ≤ 167 then 12 * hour + (n - 143) * 30 * minute
    else if n ≤ 196 then (n - 166) * day
    else (n - 192) * week := by
  have htoNat : (UInt8.ofNat n).toNat = n := Nat.mod_eq_of_lt h
  unfold relativeSeconds
  rw [htoNat]

/-- The octet that is found stands for the period. -/
theorem relativeSeconds_of_relativeOctet? (h : relativeOctet? seconds = some b) :
    relativeSeconds b = seconds := by
  unfold relativeOctet? at h
  split_ifs at h with hweeks hdays hhalfHours hfiveMinutes
  · obtain ⟨k, hlow, hhigh, rfl⟩ := (isSteps_iff (by decide)).1 hweeks
    rw [Nat.mul_div_cancel _ (by decide)] at h
    obtain rfl := Option.some.inj h
    rw [relativeSeconds_ofNat (by omega), if_neg (by omega), if_neg (by omega), if_neg (by omega),
      Nat.add_sub_cancel_left]
  · obtain ⟨k, hlow, hhigh, rfl⟩ := (isSteps_iff (by decide)).1 hdays
    rw [Nat.mul_div_cancel _ (by decide)] at h
    obtain rfl := Option.some.inj h
    rw [relativeSeconds_ofNat (by omega), if_neg (by omega), if_neg (by omega), if_pos (by omega),
      Nat.add_sub_cancel_left]
  · obtain ⟨hlong, hsteps⟩ := Bool.and_eq_true_iff.1 hhalfHours
    obtain ⟨k, hlow, hhigh, hk⟩ := (isSteps_iff (by decide)).1 hsteps
    rw [hk, Nat.mul_div_cancel _ (by decide)] at h
    obtain rfl := Option.some.inj h
    rw [relativeSeconds_ofNat (by omega), if_neg (by omega), if_pos (by omega),
      Nat.add_sub_cancel_left, Nat.mul_assoc, ← hk]
    exact Nat.add_sub_of_le (Nat.le_of_lt (of_decide_eq_true hlong))
  · obtain ⟨k, hlow, hhigh, rfl⟩ := (isSteps_iff (by decide)).1 hfiveMinutes
    rw [Nat.mul_div_cancel _ (by decide)] at h
    obtain rfl := Option.some.inj h
    rw [relativeSeconds_ofNat (by omega), if_pos (by omega), Nat.sub_add_cancel hlow,
      Nat.mul_assoc]

/-- Every octet is found from its period. -/
theorem relativeOctet?_relativeSeconds : ∀ b, relativeOctet? (relativeSeconds b) = some b := by
  decide +kernel

theorem relativeOctet?_eq_none :
    relativeOctet? seconds = none ↔ ¬∃ b, relativeSeconds b = seconds := by
  constructor
  · rintro h ⟨b, rfl⟩
    rw [relativeOctet?_relativeSeconds] at h
    cases h
  · intro h
    cases hoctet : relativeOctet? seconds with
    | none => rfl
    | some b => exact absurd ⟨b, relativeSeconds_of_relativeOctet? hoctet⟩ h

/-- The periods of the table: half a day in steps of five minutes, the next half in half hours, then
days up to thirty and weeks up to 63. -/
inductive Tabled : Nat → Prop
  | fiveMinutes {k : Nat} (hlow : 1 ≤ k) (hhigh : k ≤ 144) : Tabled (k * (5 * minute))
  | halfHours {k : Nat} (hlow : 1 ≤ k) (hhigh : k ≤ 24) : Tabled (12 * hour + k * (30 * minute))
  | days {k : Nat} (hlow : 2 ≤ k) (hhigh : k ≤ 30) : Tabled (k * day)
  | weeks {k : Nat} (hlow : 5 ≤ k) (hhigh : k ≤ 63) : Tabled (k * week)

theorem tabled_relativeSeconds (b : UInt8) : Tabled (relativeSeconds b) := by
  have hb : b.toNat < 256 := b.toNat_lt
  unfold relativeSeconds
  dsimp only
  split
  · rw [Nat.mul_assoc]
    exact .fiveMinutes (by omega) (by omega)
  · split
    · rw [Nat.mul_assoc]
      exact .halfHours (by omega) (by omega)
    · split
      · exact .days (by omega) (by omega)
      · exact .weeks (by omega) (by omega)

/-- Every period of the table has its octet. -/
theorem Tabled.exists_octet (h : Tabled seconds) : ∃ b, relativeSeconds b = seconds := by
  cases h with
  | @fiveMinutes k hlow hhigh =>
    refine ⟨UInt8.ofNat (k - 1), ?_⟩
    rw [relativeSeconds_ofNat (by omega), if_pos (by omega), Nat.sub_add_cancel hlow, Nat.mul_assoc]
  | @halfHours k hlow hhigh =>
    refine ⟨UInt8.ofNat (143 + k), ?_⟩
    rw [relativeSeconds_ofNat (by omega), if_neg (by omega), if_pos (by omega),
      Nat.add_sub_cancel_left, Nat.mul_assoc]
  | @days k hlow hhigh =>
    refine ⟨UInt8.ofNat (166 + k), ?_⟩
    rw [relativeSeconds_ofNat (by omega), if_neg (by omega), if_neg (by omega), if_pos (by omega),
      Nat.add_sub_cancel_left]
  | @weeks k hlow hhigh =>
    refine ⟨UInt8.ofNat (192 + k), ?_⟩
    rw [relativeSeconds_ofNat (by omega), if_neg (by omega), if_neg (by omega), if_neg (by omega),
      Nat.add_sub_cancel_left]

theorem exists_octet_iff : (∃ b, relativeSeconds b = seconds) ↔ Tabled seconds := by
  constructor
  · rintro ⟨b, rfl⟩
    exact tabled_relativeSeconds b
  · exact Tabled.exists_octet

theorem relativeSeconds_injective : Function.Injective relativeSeconds := by
  intro b b' h
  have hoctet : some b = some b' := by
    rw [← relativeOctet?_relativeSeconds b, h, relativeOctet?_relativeSeconds]
  exact Option.some.inj hoctet

/-- The table and the search for an octet are inverse to each other: an octet is found exactly when
it stands for the period, no two octets stand for the same one, and none is found exactly for the
periods that the table does not have. -/
theorem relativeTable_exact :
    (∀ (seconds : Nat) (b : UInt8), relativeOctet? seconds = some b ↔ relativeSeconds b = seconds) ∧
    Function.Injective relativeSeconds ∧
    ∀ seconds, relativeOctet? seconds = none ↔ ¬Tabled seconds := by
  refine ⟨fun seconds b => ?_, relativeSeconds_injective, fun seconds => ?_⟩
  · constructor
    · exact relativeSeconds_of_relativeOctet?
    · rintro rfl
      exact relativeOctet?_relativeSeconds b
  · rw [relativeOctet?_eq_none, exists_octet_iff]

end Validity

namespace ValidityPeriod

open Validity
open Timestamp (YearFits)

variable {seconds : Nat} {singleShot : Bool} {now : Timestamp} {v : ValidityPeriod}

/-! ## The form of a period -/

/-- The forms that a period of at least a second may get, each with the periods that get it. -/
inductive Suits (seconds : Nat) (singleShot : Bool) (now : Timestamp) : ValidityPeriod → Prop
  | relative {b : UInt8} (hb : relativeSeconds b = seconds) (hshot : singleShot = false) :
      Suits seconds singleShot now (.relative b)
  | enhancedRelative {b : UInt8} (hb : relativeSeconds b = seconds) :
      Suits seconds singleShot now (.enhanced ⟨singleShot, .relative b⟩)
  | seconds {n : UInt8} (hnone : ¬∃ b, relativeSeconds b = seconds) (hn : n.toNat = seconds) :
      Suits seconds singleShot now (.enhanced ⟨singleShot, .seconds n⟩)
  | clock {h m s : UInt8} (hnone : ¬∃ b, relativeSeconds b = seconds) (hh : h ≤ 99) (hm : m ≤ 59)
      (hs : s ≤ 59) (hclock : h.toNat * hour + m.toNat * minute + s.toNat = seconds) :
      Suits seconds singleShot now (.enhanced ⟨singleShot, .clock h m s⟩)
  | absolute {deadline : Timestamp} (hnone : ¬∃ b, relativeSeconds b = seconds)
      (hlong : maxClock < seconds) (hafter : now.after? seconds = some deadline) :
      Suits seconds singleShot now (.absolute deadline)

/-- Hours, minutes and seconds of a period within the longest of this form. -/
theorem suits_clock (hnone : ¬∃ b, relativeSeconds b = seconds) (hshort : seconds ≤ maxClock) :
    Suits seconds singleShot now (.enhanced ⟨singleShot, .clock (UInt8.ofNat (seconds / hour))
      (UInt8.ofNat (seconds % hour / minute)) (UInt8.ofNat (seconds % minute))⟩) := by
  unfold maxClock hour minute at *
  have hh : (UInt8.ofNat (seconds / (60 * 60))).toNat = seconds / (60 * 60) :=
    Nat.mod_eq_of_lt (by omega)
  have hm : (UInt8.ofNat (seconds % (60 * 60) / 60)).toNat = seconds % (60 * 60) / 60 :=
    Nat.mod_eq_of_lt (by omega)
  have hs : (UInt8.ofNat (seconds % 60)).toNat = seconds % 60 := Nat.mod_eq_of_lt (by omega)
  refine .clock hnone (UInt8.le_iff_toNat_le.2 ?_) (UInt8.le_iff_toNat_le.2 ?_)
    (UInt8.le_iff_toNat_le.2 ?_) ?_
  · rw [hh]
    show seconds / (60 * 60) ≤ 99
    omega
  · rw [hm]
    show seconds % (60 * 60) / 60 ≤ 59
    omega
  · rw [hs]
    show seconds % 60 ≤ 59
    omega
  · rw [hh, hm, hs]
    unfold hour minute
    omega

/-- The form that is picked is one of them, or a deadline is wanted that cannot be computed. -/
theorem select_cases (singleShot : Bool) (now : Timestamp) (hpos : 1 ≤ seconds) :
    Suits seconds singleShot now (select seconds singleShot now) ∨
      now.after? seconds = none ∧ select seconds singleShot now = .absent := by
  unfold select
  rw [if_neg (Nat.ne_of_gt hpos)]
  cases hoctet : relativeOctet? seconds with
  | some b =>
    have hb := relativeSeconds_of_relativeOctet? hoctet
    cases singleShot with
    | true => exact .inl (.enhancedRelative hb)
    | false => exact .inl (.relative hb rfl)
  | none =>
    have hnone := relativeOctet?_eq_none.1 hoctet
    dsimp only
    split
    · exact .inl (.seconds hnone (Nat.mod_eq_of_lt (by omega)))
    · split
      · exact .inl (suits_clock hnone ‹_›)
      · cases hafter : now.after? seconds with
        | some deadline => exact .inl (.absolute hnone (by omega) hafter)
        | none => exact .inr ⟨rfl, rfl⟩

theorem suits_select (hpos : 1 ≤ seconds) (hfits : now.SumFits seconds) :
    Suits seconds singleShot now (select seconds singleShot now) := by
  obtain hsuits | ⟨hafter, -⟩ := select_cases singleShot now hpos
  · exact hsuits
  · rw [Timestamp.after?_eq_some hfits] at hafter
    cases hafter

/-- The form is the relative octet, on its own or in the enhanced form. -/
def UsesOctet (v : ValidityPeriod) : Prop :=
  (∃ b, v = .relative b) ∨ ∃ shot b, v = .enhanced ⟨shot, .relative b⟩

/-- The form counts seconds, or hours, minutes and seconds within their ranges. -/
def CountsSeconds (v : ValidityPeriod) : Prop :=
  (∃ shot n, v = .enhanced ⟨shot, .seconds n⟩) ∨
    ∃ shot h m s, v = .enhanced ⟨shot, .clock h m s⟩ ∧ h ≤ 99 ∧ m ≤ 59 ∧ s ≤ 59

/-- The form is a deadline. -/
def IsDeadline (v : ValidityPeriod) : Prop := ∃ deadline, v = .absolute deadline

theorem Suits.usesOctet_iff (h : Suits seconds singleShot now v) :
    v.UsesOctet ↔ ∃ b, relativeSeconds b = seconds := by
  unfold UsesOctet
  cases h with
  | relative hb => exact iff_of_true (.inl ⟨_, rfl⟩) ⟨_, hb⟩
  | enhancedRelative hb => exact iff_of_true (.inr ⟨_, _, rfl⟩) ⟨_, hb⟩
  | seconds hnone | clock hnone | absolute hnone => simp [hnone]

theorem Suits.countsSeconds_iff (h : Suits seconds singleShot now v) :
    v.CountsSeconds ↔ (¬∃ b, relativeSeconds b = seconds) ∧ seconds ≤ maxClock := by
  unfold CountsSeconds
  cases h with
  | relative hb | enhancedRelative hb =>
    refine iff_of_false ?_ fun h => h.1 ⟨_, hb⟩
    rintro (⟨shot, n, ⟨⟩⟩ | ⟨shot, h, m, s, ⟨⟩, -⟩)
  | seconds hnone hn =>
    refine iff_of_true (.inl ⟨_, _, rfl⟩) ⟨hnone, ?_⟩
    rw [← hn]
    exact Nat.le_trans (Nat.le_of_lt (UInt8.toNat_lt _)) (by decide)
  | clock hnone hh hm hs hclock =>
    refine iff_of_true (.inr ⟨_, _, _, _, rfl, hh, hm, hs⟩) ⟨hnone, ?_⟩
    have hh : _ ≤ 99 := UInt8.le_iff_toNat_le.1 hh
    have hm : _ ≤ 59 := UInt8.le_iff_toNat_le.1 hm
    have hs : _ ≤ 59 := UInt8.le_iff_toNat_le.1 hs
    unfold maxClock hour minute at *
    omega
  | absolute hnone hlong =>
    refine iff_of_false ?_ fun h => absurd h.2 (Nat.not_le.2 hlong)
    rintro (⟨shot, n, ⟨⟩⟩ | ⟨shot, h, m, s, ⟨⟩, -⟩)

theorem Suits.isDeadline_iff (h : Suits seconds singleShot now v) :
    v.IsDeadline ↔ (¬∃ b, relativeSeconds b = seconds) ∧ maxClock < seconds := by
  have hcounts := h.countsSeconds_iff
  unfold IsDeadline
  cases h with
  | relative hb | enhancedRelative hb =>
    exact iff_of_false (by rintro ⟨deadline, ⟨⟩⟩) fun h => h.1 ⟨_, hb⟩
  | seconds hnone =>
    have hshort := (hcounts.1 (.inl ⟨_, _, rfl⟩)).2
    exact iff_of_false (by rintro ⟨deadline, ⟨⟩⟩) fun h => absurd h.2 (Nat.not_lt.2 hshort)
  | clock hnone hh hm hs =>
    have hshort := (hcounts.1 (.inr ⟨_, _, _, _, rfl, hh, hm, hs⟩)).2
    exact iff_of_false (by rintro ⟨deadline, ⟨⟩⟩) fun h => absurd h.2 (Nat.not_lt.2 hshort)
  | absolute hnone hlong => exact iff_of_true ⟨_, rfl⟩ ⟨hnone, hlong⟩

/-! ## What the readers make of it -/

/-- What is left of the period at its start is the period. -/
theorem Suits.secondsAt?_eq (h : Suits seconds singleShot now v)
    (hfits : YearFits (now.toUnix + seconds) now.zone) : v.secondsAt? now = some seconds := by
  cases h with
  | relative hb | enhancedRelative hb => exact congrArg some hb
  | seconds hnone hn => exact congrArg some hn
  | clock hnone hh hm hs hclock => exact congrArg some hclock
  | absolute hnone hlong hafter =>
    have hsums := Timestamp.sumFits_of_yearFits hfits
    have hsince := (Timestamp.secondsSince_iff hsums hafter).2 hfits
    rw [secondsAt?, hsince, Int.toNat_natCast]

theorem expiry?_of_not_isDeadline (h : ¬v.IsDeadline) :
    v.expiry? now = (v.secondsAt? now).bind now.after? := by
  cases v with
  | absent | relative octet | enhanced field => rfl
  | absolute deadline => exact absurd ⟨_, rfl⟩ h

/-- The message expires when the period is over. -/
theorem Suits.expiry?_eq (h : Suits seconds singleShot now v)
    (hfits : YearFits (now.toUnix + seconds) now.zone) : v.expiry? now = now.after? seconds := by
  by_cases hdeadline : v.IsDeadline
  · obtain ⟨deadline, rfl⟩ := hdeadline
    cases h with
    | absolute hnone hlong hafter => exact hafter.symm
  · rw [expiry?_of_not_isDeadline hdeadline, h.secondsAt?_eq hfits, Option.bind_some]

/-- The message expires when the seconds that are left are over, unless its deadline is past. -/
theorem expiry?_of_secondsAt? {d : Nat} (h : v.secondsAt? now = some d)
    (hfits : YearFits (now.toUnix + d) now.zone) : ∃ expiry, v.expiry? now = some expiry ∧
      (expiry.secondsSince now = d ∨
        v = .absolute expiry ∧ expiry.secondsSince now < 0 ∧ d = 0) := by
  by_cases hdeadline : v.IsDeadline
  · obtain ⟨deadline, rfl⟩ := hdeadline
    have hleft : (deadline.secondsSince now).toNat = d := Option.some.inj h
    refine ⟨deadline, rfl, ?_⟩
    by_cases hpast : deadline.secondsSince now < 0
    · exact .inr ⟨rfl, hpast, by omega⟩
    · exact .inl (by omega)
  · obtain ⟨expiry, hafter, hsince⟩ := Timestamp.exists_after? hfits
    refine ⟨expiry, ?_, .inl hsince⟩
    rw [expiry?_of_not_isDeadline hdeadline, h, Option.bind_some, hafter]

/-- A period of at least a second gets a form that says exactly how long it is, to both readers, as
long as the year of its end fits.  The relative octet is used exactly when one stands for the
period, otherwise seconds or hours, minutes and seconds up to `99:59:59`, and a deadline for what is
longer; an enhanced form says whether a single attempt is made, and a relative octet without it is
only used where that is not asked for.  Of every form that there is, the message expires when the
seconds that are left are over, or its deadline is past and none are left. -/
theorem selection_exact :
    (∀ (seconds : Nat) singleShot (now : Timestamp), 1 ≤ seconds →
      YearFits (now.toUnix + seconds) now.zone →
      ∃ v, select seconds singleShot now = v ∧ v.secondsAt? now = some seconds ∧
        v.expiry? now = now.after? seconds ∧
        (∃ expiry, now.after? seconds = some expiry ∧ expiry.secondsSince now = seconds) ∧
        (v.UsesOctet ↔ ∃ b, relativeSeconds b = seconds) ∧
        (v.CountsSeconds ↔ (¬∃ b, relativeSeconds b = seconds) ∧ seconds ≤ maxClock) ∧
        (v.IsDeadline ↔ (¬∃ b, relativeSeconds b = seconds) ∧ maxClock < seconds) ∧
        (∀ field, v = .enhanced field → field.singleShot = singleShot) ∧
        ∀ b, v = .relative b → singleShot = false) ∧
    ∀ (v : ValidityPeriod) (now : Timestamp) (d : Nat), v.secondsAt? now = some d →
      YearFits (now.toUnix + d) now.zone → ∃ expiry, v.expiry? now = some expiry ∧
        (expiry.secondsSince now = d ∨
          v = .absolute expiry ∧ expiry.secondsSince now < 0 ∧ d = 0) := by
  refine ⟨fun seconds singleShot now hpos hfits => ?_,
    fun v now d h hfits => expiry?_of_secondsAt? h hfits⟩
  have hsuits : Suits seconds singleShot now (select seconds singleShot now) :=
    suits_select hpos (Timestamp.sumFits_of_yearFits hfits)
  refine ⟨_, rfl, hsuits.secondsAt?_eq hfits, hsuits.expiry?_eq hfits,
    Timestamp.exists_after? hfits, hsuits.usesOctet_iff, hsuits.countsSeconds_iff,
    hsuits.isDeadline_iff, ?_, ?_⟩
  · intro field hv
    rw [hv] at hsuits
    cases hsuits <;> rfl
  · intro b hv
    rw [hv] at hsuits
    cases hsuits with
    | relative hb hshot => exact hshot

/-- An hour, a minute and a second, and a deadline that was met before. -/
theorem selection_exact_hour :
    (YearFits (Timestamp.afternoon.toUnix + (3661 : Nat)) Timestamp.afternoon.zone ∧
      select 3661 true .afternoon = .enhanced ⟨true, .clock 1 1 1⟩ ∧
      secondsAt? (.enhanced ⟨true, .clock 1 1 1⟩) .afternoon = some 3661 ∧
      expiry? (.enhanced ⟨true, .clock 1 1 1⟩) .afternoon = some ⟨2011, 3, 22, 15, 26, 41, 0⟩) ∧
    secondsAt? (.absolute ⟨2011, 3, 22, 14, 0, 0, 0⟩) .afternoon = some 0 ∧
      ∃ expiry, expiry? (.absolute ⟨2011, 3, 22, 14, 0, 0, 0⟩) .afternoon = some expiry ∧
        expiry.secondsSince .afternoon < 0 := by
  obtain ⟨hselect, hread⟩ := selection_exact
  have hfits : YearFits (Timestamp.afternoon.toUnix + (3661 : Nat)) Timestamp.afternoon.zone := by
    rw [← Timestamp.toUnix_ofUnix_iff]
    decide
  have hnow : YearFits (Timestamp.afternoon.toUnix + (0 : Nat)) Timestamp.afternoon.zone := by
    rw [← Timestamp.toUnix_ofUnix_iff]
    decide
  have hform : select 3661 true .afternoon = .enhanced ⟨true, .clock 1 1 1⟩ := by decide
  have hafter : Timestamp.afternoon.after? 3661 = some ⟨2011, 3, 22, 15, 26, 41, 0⟩ := by decide
  have hpast : secondsAt? (.absolute ⟨2011, 3, 22, 14, 0, 0, 0⟩) .afternoon = some 0 := by decide
  obtain ⟨v, hv, hseconds, hexpiry, -⟩ := hselect 3661 true .afternoon (by decide) hfits
  obtain rfl := hform.symm.trans hv
  obtain ⟨expiry, hsome, hsince⟩ := hread _ _ _ hpast hnow
  refine ⟨⟨hfits, hform, hseconds, hexpiry.trans hafter⟩, hpast, expiry, hsome, ?_⟩
  obtain rfl := Option.some.inj hsome
  decide

end ValidityPeriod

end ShortMessage
