import Mathlib.Logic.Function.Iterate
import Mathlib.Tactic.IntervalCases
import ShortMessage.Calendar.Civil

/-!
# Days and dates agree with counting

`Civil.dateAt` finds the date of a day by counting, one day at a time, from the first of January
1970 forwards or backwards; `Date.next` and `Date.previous` know the lengths of the months and the
leap years and nothing of eras.  The formulas of the calendar are compared with it:

* `number_next`, `number_previous` — `dayNumber` goes up by one from each real date to the next;
* `dateOfDay_number` — `dateOfDay` finds every real date from its number;
* `isReal_dateAt`, `number_dateAt`, `dateOfDay_eq` — so both formulas say what counting says;
* `dayNumber_lt_of_year_lt` — no two years give a month and day the same number.

Inside an era a year is found by its century, its place among the fours of the century and its
place among the four; `yearOfEra_eq` is the only statement that needs them.
-/

namespace ShortMessage.Civil

/-- A year, a month from 1 and a day from 1. -/
@[ext]
structure Date where
  year : Int
  month : Int
  day : Int
  deriving DecidableEq, Repr

/-- Every fourth year has a leap day, but of the full centuries only every fourth. -/
def IsLeap (year : Int) : Prop := year % 4 = 0 ∧ (year % 100 = 0 → year % 400 = 0)

instance (year : Int) : Decidable (IsLeap year) := inferInstanceAs (Decidable (_ ∧ _))

/-- The days of a month. -/
def monthLength (year month : Int) : Int :=
  if month = 2 then if IsLeap year then 29 else 28
  else if month = 4 ∨ month = 6 ∨ month = 9 ∨ month = 11 then 30
  else 31

namespace Date

/-- The date exists: there is such a month and the month has such a day. -/
structure IsReal (d : Date) : Prop where
  month_pos : 1 ≤ d.month
  month_le : d.month ≤ 12
  day_pos : 1 ≤ d.day
  day_le : d.day ≤ monthLength d.year d.month

instance (d : Date) : Decidable d.IsReal :=
  decidable_of_iff
    (1 ≤ d.month ∧ d.month ≤ 12 ∧ 1 ≤ d.day ∧ d.day ≤ monthLength d.year d.month)
    ⟨fun h => ⟨h.1, h.2.1, h.2.2.1, h.2.2.2⟩, fun h => ⟨h.1, h.2, h.3, h.4⟩⟩

/-- The day after. -/
def next (d : Date) : Date :=
  if d.day < monthLength d.year d.month then { d with day := d.day + 1 }
  else if d.month < 12 then ⟨d.year, d.month + 1, 1⟩
  else ⟨d.year + 1, 1, 1⟩

/-- The day before. -/
def previous (d : Date) : Date :=
  if 1 < d.day then { d with day := d.day - 1 }
  else if 1 < d.month then ⟨d.year, d.month - 1, monthLength d.year (d.month - 1)⟩
  else ⟨d.year - 1, 12, 31⟩

/-- How many days a date is after the first of January 1970. -/
def number (d : Date) : Int := dayNumber d.year d.month d.day

end Date

/-- The first of January 1970. -/
def epoch : Date := ⟨1970, 1, 1⟩

/-- The date so many days after the first of January 1970, counted day by day. -/
def dateAt : Int → Date
  | .ofNat n => Date.next^[n] epoch
  | .negSucc n => Date.previous^[n + 1] epoch

/-! ## Months and years -/

theorem monthLength_bounds (year month : Int) :
    28 ≤ monthLength year month ∧ monthLength year month ≤ 31 := by
  unfold monthLength
  split
  · split <;> omega
  · split <;> omega

/-- The year that a month is counted in when years begin in March. -/
def marchYear (year month : Int) : Int := if month ≤ 2 then year - 1 else year

/-- The days of a year that begins in March before one of its months. -/
def daysBeforeMonth (month : Int) : Int := (153 * ((month + 9) % 12) + 2) / 5

/-- The number of a date without eras. -/
theorem dayNumber_eq (year month day : Int) : dayNumber year month day =
    365 * marchYear year month + marchYear year month / 4 - marchYear year month / 100 +
      marchYear year month / 400 + daysBeforeMonth month + day - 719469 := by
  show marchYear year month / 400 * daysPerEra + _ - daysToEpoch = _
  unfold daysBeforeMonth daysPerEra daysToEpoch
  rw [← marchYear]
  omega

theorem dayNumber_add_day (year month day k : Int) :
    dayNumber year month (day + k) = dayNumber year month day + k := by
  rw [dayNumber_eq, dayNumber_eq]
  omega

/-- February is as long as it says, and ends a year that begins in March. -/
theorem dayNumber_march (year : Int) :
    dayNumber year 3 1 = dayNumber year 2 (monthLength year 2) + 1 := by
  rw [dayNumber_eq, dayNumber_eq, monthLength, if_pos rfl]
  have hmarch : marchYear year 3 = year ∧ daysBeforeMonth 3 = 0 := ⟨rfl, rfl⟩
  have hfebruary : marchYear year 2 = year - 1 ∧ daysBeforeMonth 2 = 337 := ⟨rfl, rfl⟩
  rw [hmarch.1, hmarch.2, hfebruary.1, hfebruary.2]
  by_cases hleap : IsLeap year
  · rw [if_pos hleap]
    unfold IsLeap at hleap
    omega
  · rw [if_neg hleap]
    unfold IsLeap at hleap
    omega

/-- A month is as long as it says. -/
theorem dayNumber_next_month {year month : Int} (hpos : 1 ≤ month) (hlt : month < 12) :
    dayNumber year (month + 1) 1 = dayNumber year month (monthLength year month) + 1 := by
  by_cases hfebruary : month = 2
  · subst hfebruary
    exact dayNumber_march year
  · have hyear : marchYear year (month + 1) = marchYear year month := by
      unfold marchYear
      split <;> split <;> omega
    have hmonth : daysBeforeMonth (month + 1) =
        daysBeforeMonth month + monthLength year month := by
      obtain rfl | hmarch : month = 1 ∨ 3 ≤ month := by omega
      · rfl
      · interval_cases month <;> rfl
    rw [dayNumber_eq, dayNumber_eq, hyear, hmonth]
    omega

/-- December is as long as it says. -/
theorem dayNumber_next_year (year : Int) :
    dayNumber (year + 1) 1 1 = dayNumber year 12 31 + 1 := by
  rw [dayNumber_eq, dayNumber_eq]
  simp [marchYear, daysBeforeMonth]
  omega

/-- A month and day comes later in a later year. -/
theorem dayNumber_lt_of_year_lt {year later month day : Int} (h : year < later) :
    dayNumber year month day < dayNumber later month day := by
  rw [dayNumber_eq, dayNumber_eq]
  unfold marchYear
  split <;> omega

theorem number_lt {d : Date} (h : d.IsReal) (hyear : d.year ≤ 65535) : d.number < 24000000 := by
  obtain ⟨hpos, hle, hday, hlength⟩ := h
  have hbounds := monthLength_bounds d.year d.month
  rw [Date.number, dayNumber_eq, marchYear, daysBeforeMonth]
  split <;> omega

theorem dayNumber_first_mono {year later : Int} (h : year ≤ later) :
    dayNumber year 1 1 ≤ dayNumber later 1 1 := by
  obtain rfl | hlt := Int.le_iff_eq_or_lt.1 h
  · exact Int.le_refl _
  · exact Int.le_of_lt (dayNumber_lt_of_year_lt hlt)

/-- No date comes before the first day of its year. -/
theorem dayNumber_first_le {year month day : Int} (hpos : 1 ≤ month) (hle : month ≤ 12)
    (hday : 1 ≤ day) : dayNumber year 1 1 ≤ dayNumber year month day := by
  have hyear : marchYear year 1 = year - 1 := rfl
  have hmonth : daysBeforeMonth 1 = 306 := rfl
  rw [dayNumber_eq, dayNumber_eq, hyear, hmonth, marchYear, daysBeforeMonth]
  split <;> omega

/-- Every real date comes before the first day of the next year. -/
theorem Date.IsReal.number_lt_next {d : Date} (h : d.IsReal) :
    d.number < dayNumber (d.year + 1) 1 1 := by
  obtain ⟨hpos, hle, hday, hlength⟩ := h
  have hbounds := monthLength_bounds d.year d.month
  have hyear : marchYear (d.year + 1) 1 = d.year := Int.add_sub_cancel d.year 1
  have hmonth : daysBeforeMonth 1 = 306 := rfl
  rw [Date.number, dayNumber_eq, dayNumber_eq, hyear, hmonth, marchYear, daysBeforeMonth]
  split <;> omega

/-! ## The date of a number -/

/-- The day of the year that begins in March, from 0. -/
def dayOfMarchYear (d : Date) : Int := daysBeforeMonth d.month + d.day - 1

/-- The month, counted from March, can be told from the day. -/
theorem Date.IsReal.month_eq {d : Date} (h : d.IsReal) :
    (5 * dayOfMarchYear d + 2) / 153 = (d.month + 9) % 12 := by
  obtain ⟨year, month, day⟩ := d
  obtain ⟨hpos, hle, hday, hlength⟩ := h
  unfold dayOfMarchYear daysBeforeMonth
  dsimp only at hpos hle hday hlength ⊢
  interval_cases month <;> simp [monthLength] at hlength <;> omega

/-- Only before the March of a leap year there is a day 365. -/
theorem Date.IsReal.dayOfMarchYear_le {d : Date} (h : d.IsReal) :
    0 ≤ dayOfMarchYear d ∧ dayOfMarchYear d ≤ 365 ∧
      (dayOfMarchYear d = 365 → IsLeap (marchYear d.year d.month + 1)) := by
  obtain ⟨year, month, day⟩ := d
  obtain ⟨hpos, hle, hday, hlength⟩ := h
  dsimp only at hpos hle hday hlength
  unfold dayOfMarchYear
  dsimp only
  by_cases hfebruary : month = 2
  · subst hfebruary
    have hbefore : daysBeforeMonth 2 = 337 := rfl
    have hyear : marchYear year 2 + 1 = year := Int.sub_add_cancel year 1
    rw [hbefore, hyear]
    unfold monthLength at hlength
    rw [if_pos rfl] at hlength
    by_cases hleap : IsLeap year
    · rw [if_pos hleap] at hlength
      exact ⟨by omega, by omega, fun _ => hleap⟩
    · rw [if_neg hleap] at hlength
      exact ⟨by omega, by omega, by omega⟩
  · have hbounds := monthLength_bounds year month
    have hmonth : (month + 9) % 12 ≤ 10 := by omega
    have hbefore : 0 ≤ daysBeforeMonth month ∧ daysBeforeMonth month ≤ 306 := by
      unfold daysBeforeMonth
      omega
    exact ⟨by omega, by omega, by omega⟩

/-- The year of a day, both counted within an era. -/
def yearOfEra (dayOfEra : Int) : Int :=
  (dayOfEra - dayOfEra / 1460 + dayOfEra / 36524 - dayOfEra / 146096) / 365

/-- The year of an era is found from its century `c`, its four `q` in the century, its place `r` in
the four, and the day in the year. -/
theorem yearOfEra_eq {c q r day dayOfEra : Int} (hc : 0 ≤ c ∧ c < 4) (hq : 0 ≤ q ∧ q < 25)
    (hr : 0 ≤ r ∧ r < 4) (hday : 0 ≤ day ∧ day ≤ 365)
    (hleap : day = 365 → r = 3 ∧ (q = 24 → c = 3))
    (heq : dayOfEra = 36524 * c + 1461 * q + 365 * r + day) :
    yearOfEra dayOfEra = 100 * c + 4 * q + r := by
  unfold yearOfEra
  have hcentury : 1461 * q + 365 * r + day ≤ 36523 ∨
      (1461 * q + 365 * r + day = 36524 ∧ c = 3) := by
    omega
  -- The last day of the era is the only one behind four whole centuries.
  have hcenturies : dayOfEra / 36524 - dayOfEra / 146096 = c := by
    obtain h | ⟨h, rfl⟩ := hcentury
    · have hfirst : dayOfEra / 36524 = c := by omega
      have hsecond : dayOfEra / 146096 = 0 := by omega
      omega
    · obtain rfl : dayOfEra = 146096 := by omega
      decide
  -- The 24 days that a century has beyond 25 times 1460, and those of the fours before, may make
  -- the last year of a four look like the next one.
  obtain hfits | ⟨hover, rfl⟩ : 24 * c + q + 365 * r + day < 1460 ∨
      (1460 ≤ 24 * c + q + 365 * r + day ∧ r = 3) := by
    omega
  · have hfours : dayOfEra / 1460 = 25 * c + q := by omega
    omega
  · have hfours : dayOfEra / 1460 = 25 * c + q + 1 := by omega
    omega

/-- The era, the year of the era and the day of the year are found from the days before. -/
theorem yearOfEra_emod {y day n : Int} (hday : 0 ≤ day ∧ day ≤ 365)
    (hleap : day = 365 → IsLeap (y + 1)) (hn : n = 365 * y + y / 4 - y / 100 + y / 400 + day) :
    n / daysPerEra = y / 400 ∧ yearOfEra (n % daysPerEra) = y % 400 ∧
      n % daysPerEra = 365 * (y % 400) + y % 400 / 4 - y % 400 / 100 + day := by
  have hplaces : day = 365 → y % 4 = 3 ∧ (y % 100 / 4 = 24 → y % 400 / 100 = 3) := by
    intro hlast
    have hleap := hleap hlast
    unfold IsLeap at hleap
    omega
  have hera : n / daysPerEra = y / 400 := by
    unfold daysPerEra
    omega
  have hdayOfEra : n % daysPerEra = 365 * (y % 400) + y % 400 / 4 - y % 400 / 100 + day := by
    rw [Int.emod_def, hera]
    unfold daysPerEra
    omega
  refine ⟨hera, ?_, hdayOfEra⟩
  rw [yearOfEra_eq (c := y % 400 / 100) (q := y % 100 / 4) (r := y % 4) (by omega) (by omega)
    (by omega) hday hplaces (by omega)]
  omega

/-- A real date is found from its number. -/
theorem dateOfDay_number {d : Date} (h : d.IsReal) :
    dateOfDay d.number = (d.year, d.month, d.day) := by
  obtain ⟨hday, hday', hleap⟩ := h.dayOfMarchYear_le
  have hn : d.number + daysToEpoch = 365 * marchYear d.year d.month +
      marchYear d.year d.month / 4 - marchYear d.year d.month / 100 +
      marchYear d.year d.month / 400 + dayOfMarchYear d := by
    rw [Date.number, dayNumber_eq, dayOfMarchYear, daysToEpoch]
    omega
  obtain ⟨hera, hyear, hdayOfEra⟩ := yearOfEra_emod ⟨hday, hday'⟩ hleap hn
  have hrest : d.number + daysToEpoch - (d.number + daysToEpoch) / daysPerEra * daysPerEra =
      (d.number + daysToEpoch) % daysPerEra := by
    rw [Int.emod_def, Int.mul_comm]
  have hdayOfYear : (d.number + daysToEpoch) % daysPerEra -
      (365 * (marchYear d.year d.month % 400) + marchYear d.year d.month % 400 / 4 -
        marchYear d.year d.month % 400 / 100) = dayOfMarchYear d := by
    omega
  have hmonth : (if (d.month + 9) % 12 < 10 then (d.month + 9) % 12 + 3
      else (d.month + 9) % 12 - 9) = d.month := by
    have hpos := h.month_pos
    have hle := h.month_le
    split <;> omega
  unfold dateOfDay
  dsimp only
  rw [hrest, ← yearOfEra, hyear, hera, hdayOfYear, h.month_eq, hmonth]
  unfold dayOfMarchYear daysBeforeMonth marchYear
  refine Prod.ext ?_ (Prod.ext rfl ?_)
  · dsimp only
    split <;> omega
  · dsimp only
    omega

/-! ## Counting -/

theorem isReal_epoch : epoch.IsReal := by decide

theorem Date.IsReal.next {d : Date} (h : d.IsReal) : d.next.IsReal := by
  have hbounds := monthLength_bounds d.year (d.month + 1)
  obtain ⟨hpos, hle, hday, hlength⟩ := h
  unfold Date.next
  split
  · constructor <;> dsimp only <;> omega
  · split
    · constructor <;> dsimp only <;> omega
    · have hjanuary : monthLength (d.year + 1) 1 = 31 := rfl
      constructor <;> dsimp only <;> omega

theorem Date.IsReal.previous {d : Date} (h : d.IsReal) : d.previous.IsReal := by
  have hbounds := monthLength_bounds d.year (d.month - 1)
  obtain ⟨hpos, hle, hday, hlength⟩ := h
  unfold Date.previous
  split
  · constructor <;> dsimp only <;> omega
  · split
    · constructor <;> dsimp only <;> omega
    · have hdecember : monthLength (d.year - 1) 12 = 31 := rfl
      constructor <;> dsimp only <;> omega

theorem number_next {d : Date} (h : d.IsReal) : d.next.number = d.number + 1 := by
  obtain ⟨hpos, hle, hday, hlength⟩ := h
  unfold Date.next Date.number
  split
  · exact dayNumber_add_day _ _ _ 1
  · have hlast : d.day = monthLength d.year d.month := by omega
    split
    · rw [hlast]
      exact dayNumber_next_month hpos ‹_›
    · have hdecember : d.month = 12 := by omega
      rw [hlast, hdecember]
      exact dayNumber_next_year d.year

theorem number_previous {d : Date} (h : d.IsReal) : d.previous.number = d.number - 1 := by
  obtain ⟨hpos, hle, hday, hlength⟩ := h
  unfold Date.previous Date.number
  split
  · exact dayNumber_add_day _ _ _ (-1)
  · have hfirst : d.day = 1 := by omega
    split
    · have hnext : dayNumber d.year (d.month - 1 + 1) 1 =
          dayNumber d.year (d.month - 1) (monthLength d.year (d.month - 1)) + 1 :=
        dayNumber_next_month (by omega) (by omega)
      rw [Int.sub_add_cancel] at hnext
      rw [hfirst, hnext, Int.add_sub_cancel]
    · have hjanuary : d.month = 1 := by omega
      have hnext := dayNumber_next_year (d.year - 1)
      rw [Int.sub_add_cancel] at hnext
      rw [hfirst, hjanuary, hnext, Int.add_sub_cancel]

/-- Counting from a real date stays on real dates, and the numbers follow. -/
theorem counted (n : Int) : (dateAt n).IsReal ∧ (dateAt n).number = n := by
  cases n with
  | ofNat n =>
    show (Date.next^[n] epoch).IsReal ∧ (Date.next^[n] epoch).number = n
    induction n with
    | zero => exact ⟨isReal_epoch, rfl⟩
    | succ n ih =>
      rw [Function.iterate_succ_apply']
      exact ⟨ih.1.next, by rw [number_next ih.1, ih.2]; rfl⟩
  | negSucc n =>
    show (Date.previous^[n + 1] epoch).IsReal ∧ (Date.previous^[n + 1] epoch).number = _
    induction n with
    | zero => exact ⟨isReal_epoch.previous, rfl⟩
    | succ n ih =>
      rw [Function.iterate_succ_apply']
      exact ⟨ih.1.previous, by rw [number_previous ih.1, ih.2]; rfl⟩

theorem isReal_dateAt (n : Int) : (dateAt n).IsReal := (counted n).1

theorem number_dateAt (n : Int) : (dateAt n).number = n := (counted n).2

/-- The formula finds the date that is counted. -/
theorem dateOfDay_eq (n : Int) :
    dateOfDay n = ((dateAt n).year, (dateAt n).month, (dateAt n).day) := by
  conv => lhs; rw [← number_dateAt n]
  exact dateOfDay_number (isReal_dateAt n)

example : dateAt 59 = ⟨1970, 3, 1⟩ ∧ dateAt (-1) = ⟨1969, 12, 31⟩ := by decide +kernel

/-- Counting comes to every real date. -/
theorem dateAt_number {d : Date} (h : d.IsReal) : dateAt d.number = d := by
  have heq := (dateOfDay_eq d.number).symm.trans (dateOfDay_number h)
  obtain ⟨hyear, hrest⟩ := Prod.ext_iff.1 heq
  obtain ⟨hmonth, hday⟩ := Prod.ext_iff.1 hrest
  exact Date.ext hyear hmonth hday

end ShortMessage.Civil
