import ShortMessage.Proofs.Calendar.Validity

/-!
# Which of the picked forms can be written

Every form that `select` picks can be written and is read back as it was, but for deadlines: of a
deadline's year only 2000 to 2099 can be written, and a period may end later.

* `validate_ofUnix` — a timestamp of so many seconds is only refused for its year;
* `year_localDate_ge` — what comes after a timestamp that can be written is of 2000 or later;
* `exists_encode_of_not_isDeadline` — the picked forms that are no deadlines can be written;
* `select_written_iff` — the exact condition where no sum overflows, and the fault where it does not
  hold.
-/

namespace ShortMessage

/-! ## The year of a deadline -/

namespace Timestamp

variable {t : Timestamp} {zone : Int8}

/-- A timestamp of a number of seconds, in a zone that can be written, is only refused for its
year. -/
theorem validate_ofUnix (seconds : Int) (hzone : -79 ≤ zone.toInt ∧ zone.toInt ≤ 79) :
    (ofUnix seconds zone).validate =
      checkPart .year 2000 2099 ((localDate seconds zone).year % 65536) := by
  have hdate := date_ofUnix seconds zone
  have hyear : ((ofUnix seconds zone).year.toNat : Int) = (localDate seconds zone).year % 65536 :=
    congrArg Civil.Date.year hdate
  rw [← hyear]
  cases hcheck : checkPart .year 2000 2099 ((ofUnix seconds zone).year.toNat : Int) with
  | error fault =>
    unfold validate
    rw [hcheck]
    rfl
  | ok u =>
    have hmonth : ((ofUnix seconds zone).month.toNat : Int) = (localDate seconds zone).month :=
      congrArg Civil.Date.month hdate
    have hday : ((ofUnix seconds zone).day.toNat : Int) = (localDate seconds zone).day :=
      congrArg Civil.Date.day hdate
    have htime := time_ofUnix seconds zone
    -- The date that is counted is real, so month and day are in range even where the year is not.
    obtain ⟨hpos, hle, hpos', hle'⟩ :=
      Civil.isReal_dateAt (localSeconds seconds zone / secondsPerDay)
    rw [← localDate] at hpos hle hpos' hle'
    have hlength := Civil.monthLength_bounds (localDate seconds zone).year
      (localDate seconds zone).month
    have hrange := checkPart_eq_ok.1 hcheck
    have hz : (ofUnix seconds zone).zone = zone := rfl
    rw [validate_eq_ok, hz]
    omega

/-- What comes after a timestamp that can be written is not of an earlier year than 2000. -/
theorem year_localDate_ge (h : t.validate = .ok ()) (n : Nat) :
    2000 ≤ (localDate (t.toUnix + n) t.zone).year := by
  obtain ⟨⟨hyear, -⟩, ⟨hpos, hle⟩, ⟨hday, -⟩, -⟩ := validate_eq_ok.1 h
  have hstart : Civil.dayNumber 2000 1 1 ≤ t.date.number :=
    calc Civil.dayNumber 2000 1 1
        ≤ Civil.dayNumber t.date.year 1 1 := Civil.dayNumber_first_mono (Int.ofNat_le.2 hyear)
      _ ≤ t.date.number := Civil.dayNumber_first_le (Int.ofNat_le.2 hpos) (Int.ofNat_le.2 hle)
          (Int.ofNat_le.2 hday)
  have hlater : t.date.number ≤ (localDate (t.toUnix + n) t.zone).number := by
    have hclock : 0 ≤ t.clock := by
      unfold clock
      omega
    have hlocal : localSeconds (t.toUnix + n) t.zone =
        t.date.number * secondsPerDay + t.clock + n := by
      rw [← localSeconds_toUnix]
      unfold localSeconds
      omega
    rw [localDate, Civil.number_dateAt, hlocal]
    unfold secondsPerDay
    omega
  by_contra hearly
  have hbefore : (localDate (t.toUnix + n) t.zone).number < Civil.dayNumber 2000 1 1 :=
    calc (localDate (t.toUnix + n) t.zone).number
        < Civil.dayNumber ((localDate (t.toUnix + n) t.zone).year + 1) 1 1 :=
          (Civil.isReal_dateAt _).number_lt_next
      _ ≤ Civil.dayNumber 2000 1 1 := Civil.dayNumber_first_mono (by omega)
  omega

end Timestamp

/-! ## What is written -/

namespace ValidityPeriod

open Decoder Validity
open Timestamp (YearFits localDate secondsLimit)

variable {seconds : Nat} {singleShot : Bool} {now : Timestamp} {v : ValidityPeriod}

/-- The local year in which a period ends that starts at `now`. -/
def endYear (seconds : Nat) (now : Timestamp) : Int :=
  (localDate (now.toUnix + seconds) now.zone).year

/-- The year can be read off the timestamp in which the period ends. -/
theorem endYear_eq (later : Timestamp) (hreal : later.IsReal)
    (hunix : now.toUnix + seconds = later.toUnix) (hzone : now.zone = later.zone) :
    endYear seconds now = later.year.toNat := by
  rw [endYear, hunix, hzone, hreal.localDate_toUnix]
  rfl

/-- A deadline is picked for the period, and the sixteen bits that it has of the year are not those
of a year that can be written. -/
structure OutOfReach (seconds : Nat) (now : Timestamp) : Prop where
  untabled : ¬Tabled seconds
  long : maxClock < seconds
  sums : now.SumFits seconds
  year : ¬(2000 ≤ endYear seconds now % 65536 ∧ endYear seconds now % 65536 ≤ 2099)

/-- A deadline that is picked is the timestamp after the period. -/
theorem exists_deadline (h : (select seconds singleShot now).IsDeadline) : ∃ deadline,
    select seconds singleShot now = .absolute deadline ∧ now.after? seconds = some deadline := by
  obtain ⟨deadline, hv⟩ := h
  obtain rfl | hpos := Nat.eq_zero_or_pos seconds
  · cases singleShot <;> cases hv
  obtain hsuits | ⟨-, habsent⟩ := select_cases singleShot now hpos
  · rw [hv] at hsuits
    cases hsuits with
    | absolute _ _ hafter => exact ⟨deadline, hv, hafter⟩
  · rw [habsent] at hv
    cases hv

theorem isDeadline_select_iff : (select seconds singleShot now).IsDeadline ↔
    ¬Tabled seconds ∧ maxClock < seconds ∧ (seconds : Int) < secondsLimit ∧
      now.toUnix + seconds < secondsLimit := by
  obtain rfl | hpos := Nat.eq_zero_or_pos seconds
  · refine iff_of_false (fun h => ?_) fun h => absurd h.2.1 (Nat.not_lt_zero _)
    obtain ⟨deadline, hv, -⟩ := exists_deadline h
    cases singleShot <;> cases hv
  obtain hsuits | ⟨hnone, habsent⟩ := select_cases singleShot now hpos
  · have hiff := hsuits.isDeadline_iff
    rw [exists_octet_iff] at hiff
    constructor
    · intro h
      obtain ⟨deadline, -, hafter⟩ := exists_deadline h
      obtain ⟨huntabled, hlong⟩ := hiff.1 h
      exact ⟨huntabled, hlong, (Timestamp.after?_eq_some_iff.1 hafter).1⟩
    · rintro ⟨huntabled, hlong, -⟩
      exact hiff.2 ⟨huntabled, hlong⟩
  · rw [habsent]
    refine iff_of_false (by rintro ⟨deadline, ⟨⟩⟩) fun h => ?_
    rw [Timestamp.after?_eq_some_iff.2 ⟨h.2.2, rfl⟩] at hnone
    cases hnone

theorem Suits.exists_encode (h : Suits seconds singleShot now v) (hv : ¬v.IsDeadline) :
    ∃ s, v.encode = .ok s := by
  cases h with
  | relative | enhancedRelative | seconds => exact ⟨_, rfl⟩
  | clock hnone hh hm hs =>
    exact ⟨_, EnhancedValidity.encode_eq_ok.2 ⟨_, if_pos ⟨hh, hm, hs⟩, rfl⟩⟩
  | absolute => exact absurd ⟨_, rfl⟩ hv

/-- The forms that are no deadlines can be written. -/
theorem exists_encode_of_not_isDeadline (h : ¬(select seconds singleShot now).IsDeadline) :
    ∃ s, (select seconds singleShot now).encode = .ok s := by
  obtain rfl | hpos := Nat.eq_zero_or_pos seconds
  · cases singleShot <;> exact ⟨_, rfl⟩
  obtain hsuits | ⟨-, habsent⟩ := select_cases singleShot now hpos
  · exact hsuits.exists_encode h
  · rw [habsent]
    exact ⟨_, rfl⟩

/-- A deadline that is picked is refused for sixteen bits of its year, or not at all. -/
theorem validate_deadline (hvalid : now.validate = .ok ()) {deadline : Timestamp}
    (h : now.after? seconds = some deadline) : deadline.validate =
      Timestamp.checkPart .year 2000 2099 (endYear seconds now % 65536) := by
  obtain ⟨-, rfl⟩ := Timestamp.after?_eq_some_iff.1 h
  obtain ⟨-, -, -, -, -, -, hzone⟩ := Timestamp.validate_eq_ok.1 hvalid
  exact Timestamp.validate_ofUnix _ hzone

theorem OutOfReach.isDeadline (h : OutOfReach seconds now) (singleShot : Bool) :
    (select seconds singleShot now).IsDeadline :=
  isDeadline_select_iff.2 ⟨h.untabled, h.long, h.sums.period, h.sums.sum⟩

theorem OutOfReach.encode_eq (h : OutOfReach seconds now) (hvalid : now.validate = .ok ()) :
    (select seconds singleShot now).encode =
      .error (.field (.clockRange .year (endYear seconds now % 65536))) := by
  obtain ⟨deadline, hv, hafter⟩ := exists_deadline (h.isDeadline singleShot)
  have hrefused : deadline.validate =
      .error (.field (.clockRange .year (endYear seconds now % 65536))) := by
    rw [validate_deadline hvalid hafter]
    exact if_neg h.year
  rw [hv]
  show deadline.encode = _
  unfold Timestamp.encode
  rw [hrefused]
  rfl

theorem exists_encode_of_not_outOfReach (singleShot : Bool) (h : ¬OutOfReach seconds now)
    (hvalid : now.validate = .ok ()) (hsums : now.SumFits seconds ∨ now.after? seconds = none) :
    ∃ s, (select seconds singleShot now).encode = .ok s := by
  by_cases hdeadline : (select seconds singleShot now).IsDeadline
  · obtain ⟨deadline, hv, hafter⟩ := exists_deadline hdeadline
    obtain ⟨huntabled, hlong, -⟩ := isDeadline_select_iff.1 hdeadline
    have hfits : now.SumFits seconds := hsums.resolve_right (by rw [hafter]; rintro ⟨⟩)
    have hyear : 2000 ≤ endYear seconds now % 65536 ∧ endYear seconds now % 65536 ≤ 2099 := by
      by_contra hyear
      exact h ⟨huntabled, hlong, hfits, hyear⟩
    have hdeadline : deadline.validate = .ok () := by
      rw [validate_deadline hvalid hafter]
      exact if_pos hyear
    rw [hv]
    exact ⟨_, Timestamp.encode_eq_ok.2 ⟨hdeadline, rfl⟩⟩
  · exact exists_encode_of_not_isDeadline hdeadline

/-- Up to the year 65535 the periods out of reach are those that need a deadline past 2099. -/
theorem outOfReach_iff_of_le (hvalid : now.validate = .ok ()) (hle : endYear seconds now ≤ 65535) :
    OutOfReach seconds now ↔ ¬Tabled seconds ∧ maxClock < seconds ∧ 2099 < endYear seconds now := by
  have hlow : 2000 ≤ endYear seconds now := Timestamp.year_localDate_ge hvalid seconds
  have hyear : ¬(2000 ≤ endYear seconds now % 65536 ∧ endYear seconds now % 65536 ≤ 2099) ↔
      2099 < endYear seconds now := by
    omega
  have hfits : YearFits (now.toUnix + seconds) now.zone := ⟨Int.le_trans (by decide) hlow, hle⟩
  have hsums := Timestamp.sumFits_of_yearFits hfits
  constructor
  · intro h
    exact ⟨h.untabled, h.long, hyear.1 h.year⟩
  · rintro ⟨huntabled, hlong, hlate⟩
    exact ⟨huntabled, hlong, hsums, hyear.2 hlate⟩

theorem formatBits_lt (v : ValidityPeriod) : v.formatBits.toNat < 4 := by
  cases v with
  | absent => exact (by decide : (0 : UInt8).toNat < 4)
  | enhanced field => exact (by decide : (1 : UInt8).toNat < 4)
  | relative octet => exact (by decide : (2 : UInt8).toNat < 4)
  | absolute deadline => exact (by decide : (3 : UInt8).toNat < 4)

/-- For every period that starts at a timestamp that can be written and whose sums 64 bits hold, or
that has no timestamp for its end, the form that is picked can be written, and is read back as it
was in the form that its two bits name, unless the period is out of reach.  Then a deadline is picked
that is refused for its year.  Up to the year 65535 the periods out of reach are those that need a
deadline and end after 2099; past it, the sixteen bits that a deadline has of its year decide. -/
theorem select_written_iff (seconds : Nat) (singleShot : Bool) (now : Timestamp)
    (hvalid : now.validate = .ok ()) (hsums : now.SumFits seconds ∨ now.after? seconds = none) :
    ((∃ s, (select seconds singleShot now).encode = .ok s ∧
        Reads (decoder (select seconds singleShot now).formatBits) s
          (select seconds singleShot now)) ↔ ¬OutOfReach seconds now) ∧
    (OutOfReach seconds now → (select seconds singleShot now).IsDeadline ∧
      (select seconds singleShot now).encode =
        .error (.field (.clockRange .year (endYear seconds now % 65536)))) ∧
    (endYear seconds now ≤ 65535 → (OutOfReach seconds now ↔
      ¬Tabled seconds ∧ maxClock < seconds ∧ 2099 < endYear seconds now)) := by
  refine ⟨⟨?_, fun h => ?_⟩, fun h => ⟨h.isDeadline singleShot, h.encode_eq hvalid⟩,
    outOfReach_iff_of_le hvalid⟩
  · rintro ⟨s, hs, -⟩ h
    rw [h.encode_eq hvalid] at hs
    cases hs
  · obtain ⟨s, hs⟩ := exists_encode_of_not_outOfReach singleShot h hvalid hsums
    exact ⟨s, hs, reads_validity hs (Nat.mod_eq_of_lt (formatBits_lt _))⟩

/-- The first of the last December that can be written. -/
def december : Timestamp := ⟨2099, 12, 1, 0, 0, 0, 0⟩

/-- A second more than thirty days ends before the year does, a second more than forty days in
January 2100. -/
theorem select_written_december :
    december.validate = .ok () ∧ december.SumFits 2592001 ∧ december.SumFits 3456001 ∧
    (select 2592001 false december = .absolute ⟨2099, 12, 31, 0, 0, 1, 0⟩ ∧
      ¬OutOfReach 2592001 december ∧
      ∃ s, (select 2592001 false december).encode = .ok s ∧
        Reads (decoder (select 2592001 false december).formatBits) s
          (select 2592001 false december)) ∧
    select 3456001 false december = .absolute ⟨2100, 1, 10, 0, 0, 1, 0⟩ ∧
      OutOfReach 3456001 december ∧
      (select 3456001 false december).encode = .error (.field (.clockRange .year 2100)) := by
  have hvalid : december.validate = .ok () := by decide
  have hnear : endYear 2592001 december = 2099 :=
    endYear_eq ⟨2099, 12, 31, 0, 0, 1, 0⟩ (by decide) (by decide) rfl
  have hfar : endYear 3456001 december = 2100 :=
    endYear_eq ⟨2100, 1, 10, 0, 0, 1, 0⟩ (by decide) (by decide) rfl
  have hfits : december.SumFits 2592001 := ⟨by decide, by decide, by decide⟩
  have hfits' : december.SumFits 3456001 := ⟨by decide, by decide, by decide⟩
  obtain ⟨hwritten, -, hreach⟩ := select_written_iff 2592001 false december hvalid (.inl hfits)
  obtain ⟨-, hrefused, hreach'⟩ := select_written_iff 3456001 false december hvalid (.inl hfits')
  have hnot : ¬OutOfReach 2592001 december := by
    rw [hreach (by omega), hnear]
    exact fun h => absurd h.2.2 (by decide)
  have htable : ¬Tabled 3456001 := by
    rw [← exists_octet_iff, ← relativeOctet?_eq_none]
    decide
  have hout : OutOfReach 3456001 december := by
    rw [hreach' (by omega), hfar]
    exact ⟨htable, by decide, by decide⟩
  have hfault := (hrefused hout).2
  rw [hfar] at hfault
  exact ⟨hvalid, hfits, hfits', ⟨by decide, hnot, hwritten.2 hnot⟩, by decide, hout, hfault⟩

/-- So a form may be picked that cannot be written, although no sum overflows. -/
theorem select_unwritten : ¬∀ (seconds : Nat) (singleShot : Bool) (now : Timestamp),
    now.validate = .ok () → now.SumFits seconds →
      ∃ s, (select seconds singleShot now).encode = .ok s ∧
        Reads (decoder (select seconds singleShot now).formatBits) s
          (select seconds singleShot now) := by
  intro h
  have hfits : december.SumFits 3456001 := ⟨by decide, by decide, by decide⟩
  have hrefused : (select 3456001 false december).encode =
      .error (.field (.clockRange .year 2100)) := by decide
  obtain ⟨s, hs, -⟩ := h 3456001 false december (by decide) hfits
  rw [hrefused] at hs
  cases hs

end ValidityPeriod

end ShortMessage
