import ShortMessage.Proofs.Calendar.Civil
import ShortMessage.Proofs.Codec.Fields

/-!
# Timestamps and seconds

A timestamp is taken apart into its date, its time of day in seconds (`clock`) and its zone.  What
`ofUnix` makes of a number of seconds is compared with the date that counting the days comes to
(`localDate`):

* `date_ofUnix`, `clock_ofUnix` — the date is that one, but of its year sixteen bits are kept;
* `toUnix_ofUnix_iff` — so the seconds are found again exactly when the year fits (`YearFits`);
* `ofUnix_toUnix` — and every real timestamp is found from its seconds;
* `calendar_exact` — both directions and the written form together.

`after?` checks the sums and not the year (`after_exact_iff`), and so gives a wrong date for an
instant whose year does not fit (`after_inexact`).
-/

namespace ShortMessage.Timestamp

open Decoder

/-! ## The parts of a timestamp -/

/-- The date of a timestamp. -/
def date (t : Timestamp) : Civil.Date := ⟨t.year.toNat, t.month.toNat, t.day.toNat⟩

/-- The seconds of a timestamp since midnight. -/
def clock (t : Timestamp) : Int := t.hour.toNat * 3600 + t.minute.toNat * 60 + t.second.toNat

/-- The date exists and the time of day does. -/
structure IsReal (t : Timestamp) : Prop where
  date : t.date.IsReal
  hour : t.hour.toNat < 24
  minute : t.minute.toNat < 60
  second : t.second.toNat < 60

instance (t : Timestamp) : Decidable t.IsReal :=
  decidable_of_iff
    (t.date.IsReal ∧ t.hour.toNat < 24 ∧ t.minute.toNat < 60 ∧ t.second.toNat < 60)
    ⟨fun h => ⟨h.1, h.2.1, h.2.2.1, h.2.2.2⟩, fun h => ⟨h.1, h.2, h.3, h.4⟩⟩

/-- The seconds in local time of a number of seconds in universal time. -/
def localSeconds (seconds : Int) (zone : Int8) : Int := seconds + zoneSeconds zone

/-- The date in a zone, counted day by day. -/
def localDate (seconds : Int) (zone : Int8) : Civil.Date :=
  Civil.dateAt (localSeconds seconds zone / secondsPerDay)

/-- The local year fits the sixteen bits that a timestamp has for it. -/
def YearFits (seconds : Int) (zone : Int8) : Prop :=
  0 ≤ (localDate seconds zone).year ∧ (localDate seconds zone).year ≤ 65535

variable {t t' : Timestamp}

theorem toUnix_eq (t : Timestamp) :
    t.toUnix = t.date.number * secondsPerDay + t.clock - zoneSeconds t.zone := by
  show Civil.dayNumber t.year.toNat t.month.toNat t.day.toNat * secondsPerDay + _ + _ + _ - _ = _
  rw [← show t.date.number = Civil.dayNumber t.year.toNat t.month.toNat t.day.toNat from rfl, clock]
  omega

theorem IsReal.clock_range (h : t.IsReal) : 0 ≤ t.clock ∧ t.clock < secondsPerDay := by
  have hhour := h.hour
  have hminute := h.minute
  have hsecond := h.second
  unfold clock secondsPerDay
  omega

/-- A real timestamp is known by its date, its seconds since midnight and its zone. -/
theorem IsReal.eq (h : t.IsReal) (h' : t'.IsReal) (hdate : t.date = t'.date)
    (hclock : t.clock = t'.clock) (hzone : t.zone = t'.zone) : t = t' := by
  obtain ⟨-, hhour, hminute, hsecond⟩ := h
  obtain ⟨-, hhour', hminute', hsecond'⟩ := h'
  obtain ⟨hyear, hmonth, hday⟩ := Civil.Date.ext_iff.1 hdate
  unfold clock at hclock
  have hyear : t.year = t'.year := UInt16.toNat_inj.1 (Int.ofNat_inj.1 hyear)
  have hmonth : t.month = t'.month := UInt8.toNat_inj.1 (Int.ofNat_inj.1 hmonth)
  have hday : t.day = t'.day := UInt8.toNat_inj.1 (Int.ofNat_inj.1 hday)
  have hhour : t.hour = t'.hour := UInt8.toNat_inj.1 (by omega)
  have hminute : t.minute = t'.minute := UInt8.toNat_inj.1 (by omega)
  have hsecond : t.second = t'.second := UInt8.toNat_inj.1 (by omega)
  cases t
  cases t'
  simp_all

/-! ## From seconds to timestamps -/

section

variable (seconds : Int) (zone : Int8)

theorem ofUnix_eq : ofUnix seconds zone =
    { year := UInt16.ofNat ((localDate seconds zone).year % 65536).toNat
      month := UInt8.ofNat (localDate seconds zone).month.toNat
      day := UInt8.ofNat (localDate seconds zone).day.toNat
      hour := UInt8.ofNat (localSeconds seconds zone % secondsPerDay / 3600).toNat
      minute := UInt8.ofNat (localSeconds seconds zone % secondsPerDay % 3600 / 60).toNat
      second := UInt8.ofNat (localSeconds seconds zone % secondsPerDay % 60).toNat
      zone } := by
  unfold ofUnix
  dsimp only
  rw [← localSeconds, Civil.dateOfDay_eq]
  rfl

theorem toNat_octet {n : Int} (h : 0 ≤ n) (hlt : n < 256) :
    ((UInt8.ofNat n.toNat).toNat : Int) = n := by
  have hsmall : (UInt8.ofNat n.toNat).toNat = n.toNat := Nat.mod_eq_of_lt (by omega)
  rw [hsmall, Int.toNat_of_nonneg h]

/-- The date is the one that is counted, but of its year sixteen bits are kept. -/
theorem date_ofUnix : (ofUnix seconds zone).date = ⟨(localDate seconds zone).year % 65536,
    (localDate seconds zone).month, (localDate seconds zone).day⟩ := by
  obtain ⟨hmonth, hmonth', hday, hday'⟩ :=
    Civil.isReal_dateAt (localSeconds seconds zone / secondsPerDay)
  rw [← localDate] at hmonth hmonth' hday hday'
  have hlength := Civil.monthLength_bounds (localDate seconds zone).year
    (localDate seconds zone).month
  have hyear : (UInt16.ofNat ((localDate seconds zone).year % 65536).toNat).toNat =
      ((localDate seconds zone).year % 65536).toNat := Nat.mod_eq_of_lt (by omega)
  rw [ofUnix_eq, date]
  apply Civil.Date.ext
  · dsimp only
    rw [hyear]
    omega
  · exact toNat_octet (by omega) (by omega)
  · exact toNat_octet (by omega) (by omega)

theorem timeOfDay_range : 0 ≤ localSeconds seconds zone % secondsPerDay ∧
    localSeconds seconds zone % secondsPerDay < 86400 := by
  unfold secondsPerDay
  omega

/-- The time of day is what is left of the last day. -/
theorem clock_ofUnix : (ofUnix seconds zone).clock = localSeconds seconds zone % secondsPerDay := by
  have hrange := timeOfDay_range seconds zone
  rw [ofUnix_eq, clock]
  dsimp only
  rw [toNat_octet (by omega) (by omega), toNat_octet (by omega) (by omega),
    toNat_octet (by omega) (by omega)]
  omega

/-- The local seconds are those of the days that were counted and of the time of day. -/
theorem localSeconds_eq : localSeconds seconds zone =
    (localDate seconds zone).number * secondsPerDay +
      localSeconds seconds zone % secondsPerDay := by
  rw [localDate, Civil.number_dateAt, Int.mul_comm]
  exact (Int.mul_ediv_add_emod _ _).symm

theorem yearFits_iff : YearFits seconds zone ↔
    (localDate seconds zone).year % 65536 = (localDate seconds zone).year := by
  unfold YearFits
  omega

theorem date_ofUnix_of_fits (h : YearFits seconds zone) :
    (ofUnix seconds zone).date = localDate seconds zone := by
  rw [date_ofUnix, (yearFits_iff seconds zone).1 h]

/-- The seconds are found again exactly when the year fits. -/
theorem toUnix_ofUnix_iff : (ofUnix seconds zone).toUnix = seconds ↔ YearFits seconds zone := by
  have hseconds : seconds = localSeconds seconds zone - zoneSeconds zone :=
    (Int.add_sub_cancel _ _).symm
  have hlocal := localSeconds_eq seconds zone
  have hunix : (ofUnix seconds zone).toUnix = (ofUnix seconds zone).date.number * secondsPerDay +
      localSeconds seconds zone % secondsPerDay - zoneSeconds zone := by
    rw [toUnix_eq, clock_ofUnix]
    rfl
  constructor
  · intro h
    have hnumber : (ofUnix seconds zone).date.number = (localDate seconds zone).number := by
      unfold secondsPerDay at *
      omega
    rw [date_ofUnix] at hnumber
    -- A lesser or a greater year has lesser or greater numbers.
    rw [yearFits_iff]
    by_contra hne
    obtain hlt | hlt := Int.lt_or_gt_of_ne hne
    · exact absurd hnumber (Int.ne_of_lt (Civil.dayNumber_lt_of_year_lt hlt))
    · exact absurd hnumber (Int.ne_of_gt (Civil.dayNumber_lt_of_year_lt hlt))
  · intro h
    rw [hunix, date_ofUnix_of_fits _ _ h, ← hlocal]
    exact hseconds.symm

/-- The time of day exists, whatever the year. -/
theorem time_ofUnix : (ofUnix seconds zone).hour.toNat < 24 ∧
    (ofUnix seconds zone).minute.toNat < 60 ∧ (ofUnix seconds zone).second.toNat < 60 := by
  have hrange := timeOfDay_range seconds zone
  refine ⟨?_, ?_, ?_⟩
  all_goals
    rw [ofUnix_eq]
    apply Int.ofNat_lt.1
    rw [toNat_octet (by omega) (by omega)]
    omega

theorem isReal_ofUnix (h : YearFits seconds zone) : (ofUnix seconds zone).IsReal := by
  obtain ⟨hhour, hminute, hsecond⟩ := time_ofUnix seconds zone
  have hdate : (ofUnix seconds zone).date.IsReal := by
    rw [date_ofUnix_of_fits _ _ h]
    exact Civil.isReal_dateAt _
  exact ⟨hdate, hhour, hminute, hsecond⟩

end

/-! ## From timestamps to seconds -/

theorem localSeconds_toUnix (t : Timestamp) :
    localSeconds t.toUnix t.zone = t.date.number * secondsPerDay + t.clock := by
  rw [localSeconds, toUnix_eq]
  omega

theorem IsReal.localDate_toUnix (h : t.IsReal) : localDate t.toUnix t.zone = t.date := by
  have hclock := h.clock_range
  have hday : localSeconds t.toUnix t.zone / secondsPerDay = t.date.number := by
    rw [localSeconds_toUnix]
    unfold secondsPerDay at *
    omega
  rw [localDate, hday, Civil.dateAt_number h.date]

/-- The seconds of a real timestamp give it back. -/
theorem ofUnix_toUnix (h : t.IsReal) : ofUnix t.toUnix t.zone = t := by
  have hfits : YearFits t.toUnix t.zone := by
    have hyear := t.year.toNat_lt
    rw [YearFits, h.localDate_toUnix]
    unfold date
    dsimp only
    omega
  have hclock := h.clock_range
  refine (isReal_ofUnix _ _ hfits).eq h ?_ ?_ rfl
  · rw [date_ofUnix_of_fits _ _ hfits, h.localDate_toUnix]
  · rw [clock_ofUnix, localSeconds_toUnix]
    unfold secondsPerDay at *
    omega

/-- Timestamps of this century in a zone of the written form can be written. -/
theorem validate_of_isReal (h : t.IsReal) (hyear : 2000 ≤ t.year.toNat ∧ t.year.toNat ≤ 2099)
    (hzone : -79 ≤ t.zone.toInt ∧ t.zone.toInt ≤ 79) : t.validate = .ok () := by
  obtain ⟨⟨hmonth, hmonth', hday, hday'⟩, hhour, hminute, hsecond⟩ := h
  have hlength := Civil.monthLength_bounds t.date.year t.date.month
  unfold date at *
  dsimp only at *
  rw [validate_eq_ok]
  omega

/-- Seconds and timestamps belong to each other.  Whatever the seconds and the zone, as long as the
local year fits a timestamp, the timestamp has the date that counting the days comes to, the time
that is left of the day, and the same seconds; every real timestamp is that of its seconds; and
those of the years 2000 to 2099, in the zones that can be written, are read as they were written. -/
theorem calendar_exact :
    (∀ seconds zone, YearFits seconds zone →
      (ofUnix seconds zone).IsReal ∧ (ofUnix seconds zone).date = localDate seconds zone ∧
        (ofUnix seconds zone).clock = localSeconds seconds zone % secondsPerDay ∧
        (ofUnix seconds zone).zone = zone ∧ (ofUnix seconds zone).toUnix = seconds) ∧
    (∀ t : Timestamp, t.IsReal → ofUnix t.toUnix t.zone = t) ∧
    ∀ seconds (zone : Int8), 2000 ≤ (localDate seconds zone).year →
      (localDate seconds zone).year ≤ 2099 → -79 ≤ zone.toInt → zone.toInt ≤ 79 →
      (ofUnix seconds zone).validate = .ok () ∧
        ∃ s, (ofUnix seconds zone).encode = .ok s ∧ Reads decoder s (ofUnix seconds zone) := by
  refine ⟨fun seconds zone h => ?_, fun t => ofUnix_toUnix, ?_⟩
  · exact ⟨isReal_ofUnix _ _ h, date_ofUnix_of_fits _ _ h, clock_ofUnix _ _, rfl,
      (toUnix_ofUnix_iff _ _).2 h⟩
  · intro seconds zone hlow hhigh hz hz'
    have hfits : YearFits seconds zone := ⟨by omega, by omega⟩
    have hyear : ((ofUnix seconds zone).year.toNat : Int) = (localDate seconds zone).year :=
      congrArg Civil.Date.year (date_ofUnix_of_fits _ _ hfits)
    have hvalid := validate_of_isReal (isReal_ofUnix _ _ hfits) (by omega) ⟨hz, hz'⟩
    have hencode := encode_eq_ok.2 ⟨hvalid, rfl⟩
    exact ⟨hvalid, _, hencode, reads_timestamp hencode⟩

/-- The last second of a leap day, as far behind universal time as a zone can be written. -/
def leapDay : Timestamp := ⟨2000, 2, 29, 23, 59, 59, -79⟩

/-- A leap day of a full century, local time a day behind. -/
theorem calendar_exact_leapDay :
    leapDay.IsReal ∧ YearFits 951939899 (-79) ∧ ofUnix 951939899 (-79) = leapDay ∧
      leapDay.toUnix = 951939899 ∧ leapDay.encode = .ok [0x00, 0x20, 0x92, 0x32, 0x95, 0x95, 0x9F] ∧
      Reads decoder [0x00, 0x20, 0x92, 0x32, 0x95, 0x95, 0x9F] leapDay := by
  have hreal : leapDay.IsReal := by decide
  have hunix : leapDay.toUnix = 951939899 := by decide
  have hdate : localDate 951939899 (-79) = ⟨2000, 2, 29⟩ := hunix ▸ hreal.localDate_toUnix
  have hfits : YearFits 951939899 (-79) := by
    rw [YearFits, hdate]
    decide
  obtain ⟨hseconds, hback, hwritten⟩ := calendar_exact
  have hof : ofUnix 951939899 (-79) = leapDay := hunix ▸ hback leapDay hreal
  have hyear : (localDate 951939899 (-79)).year = 2000 := by rw [hdate]
  obtain ⟨-, s, hs, hread⟩ := hwritten 951939899 (-79) (by omega) (by omega) (by decide) (by decide)
  rw [hof] at hs hread
  have henc : leapDay.encode = .ok [0x00, 0x20, 0x92, 0x32, 0x95, 0x95, 0x9F] := by decide
  obtain rfl := Except.ok.inj (hs.symm.trans henc)
  exact ⟨hreal, hfits, hof, hunix, henc, hread⟩

/-! ## Adding a period -/

/-- 64 signed bits hold the period, the sum, and the sum in local time.  None of them can be too low
(`toUnix_gt`). -/
structure SumFits (t : Timestamp) (seconds : Nat) : Prop where
  period : (seconds : Int) < secondsLimit
  sum : t.toUnix + seconds < secondsLimit
  localSum : localSeconds (t.toUnix + seconds) t.zone < secondsLimit

theorem toUnix_gt (t : Timestamp) : -100000000000 < t.toUnix := by
  have hzone : t.zone.toInt ≤ 127 := Int8.toInt_le t.zone
  have hnumber : -730000 ≤ t.date.number := by
    rw [Civil.Date.number, Civil.dayNumber_eq, Civil.marchYear, Civil.daysBeforeMonth, date]
    dsimp only
    split <;> omega
  have hclock : 0 ≤ t.clock := by
    unfold clock
    omega
  rw [toUnix_eq, zoneSeconds]
  unfold secondsPerDay secondsPerQuarter
  omega

/-- Where the year fits, so do the sums. -/
theorem sumFits_of_yearFits {seconds : Nat} (h : YearFits (t.toUnix + seconds) t.zone) :
    t.SumFits seconds := by
  have hzone : -128 ≤ t.zone.toInt := Int8.le_toInt t.zone
  have hnumber := Civil.number_lt (Civil.isReal_dateAt _) h.2
  have hlocal := localSeconds_eq (t.toUnix + seconds) t.zone
  have hunix := toUnix_gt t
  constructor
  all_goals
    unfold localDate localSeconds zoneSeconds secondsPerDay secondsPerQuarter secondsLimit at *
    omega

theorem after?_eq_some_iff {later : Timestamp} {seconds : Nat} : t.after? seconds = some later ↔
    ((seconds : Int) < secondsLimit ∧ t.toUnix + seconds < secondsLimit) ∧
      ofUnix (t.toUnix + seconds) t.zone = later := by
  unfold after?
  split <;> simp_all

theorem after?_eq_some {seconds : Nat} (h : t.SumFits seconds) :
    t.after? seconds = some (ofUnix (t.toUnix + seconds) t.zone) :=
  after?_eq_some_iff.2 ⟨⟨h.period, h.sum⟩, rfl⟩

theorem secondsSince_iff {later : Timestamp} {seconds : Nat} (h : t.SumFits seconds)
    (hlater : t.after? seconds = some later) :
    later.secondsSince t = seconds ↔ YearFits (t.toUnix + seconds) t.zone := by
  rw [after?_eq_some h] at hlater
  obtain rfl := Option.some.inj hlater
  rw [← toUnix_ofUnix_iff, secondsSince]
  omega

theorem exists_after? {seconds : Nat} (h : YearFits (t.toUnix + seconds) t.zone) :
    ∃ later, t.after? seconds = some later ∧ later.secondsSince t = seconds := by
  have hsums := sumFits_of_yearFits h
  have hlater := after?_eq_some hsums
  exact ⟨_, hlater, (secondsSince_iff hsums hlater).2 h⟩

/-- As long as the sums fit there is always a timestamp so much later, in the same zone and with the
month, day and time of the instant; but it is so much later exactly when the year of the instant
fits, and has only sixteen bits of the year otherwise. -/
theorem after_exact_iff (t : Timestamp) (seconds : Nat) (h : t.SumFits seconds) :
    ∃ later, t.after? seconds = some later ∧ later.zone = t.zone ∧
      later.date = ⟨(localDate (t.toUnix + seconds) t.zone).year % 65536,
        (localDate (t.toUnix + seconds) t.zone).month,
        (localDate (t.toUnix + seconds) t.zone).day⟩ ∧
      later.clock = localSeconds (t.toUnix + seconds) t.zone % secondsPerDay ∧
      (later.secondsSince t = seconds ↔ YearFits (t.toUnix + seconds) t.zone) := by
  have hlater := after?_eq_some h
  exact ⟨_, hlater, rfl, date_ofUnix _ _, clock_ofUnix _ _, secondsSince_iff h hlater⟩

/-- An afternoon in March. -/
def afternoon : Timestamp := ⟨2011, 3, 22, 14, 25, 40, 0⟩

/-- A day later the year fits; in the year 65547 it does not, and the date is one of the year 11. -/
theorem after_exact_iff_afternoon :
    (afternoon.SumFits 86400 ∧ afternoon.after? 86400 = some ⟨2011, 3, 23, 14, 25, 40, 0⟩ ∧
      YearFits (afternoon.toUnix + 86400) afternoon.zone) ∧
    afternoon.SumFits 2005000000000 ∧
      afternoon.after? 2005000000000 = some ⟨11, 2, 22, 2, 52, 20, 0⟩ ∧
      ¬YearFits (afternoon.toUnix + 2005000000000) afternoon.zone := by
  have hday : afternoon.SumFits 86400 := ⟨by decide, by decide, by decide⟩
  have hlong : afternoon.SumFits 2005000000000 := ⟨by decide, by decide, by decide⟩
  have hafter : afternoon.after? 86400 = some ⟨2011, 3, 23, 14, 25, 40, 0⟩ := by decide
  have hwrong : afternoon.after? 2005000000000 = some ⟨11, 2, 22, 2, 52, 20, 0⟩ := by decide
  obtain ⟨later, hsome, -, -, -, hiff⟩ := after_exact_iff afternoon 86400 hday
  obtain ⟨later', hsome', -, -, -, hiff'⟩ := after_exact_iff afternoon 2005000000000 hlong
  obtain rfl := Option.some.inj (hsome.symm.trans hafter)
  obtain rfl := Option.some.inj (hsome'.symm.trans hwrong)
  exact ⟨⟨hday, hafter, hiff.1 (by decide)⟩, hlong, hwrong, mt hiff'.2 (by decide)⟩

/-- So what is given need not be so much later, and is given although the year does not fit. -/
theorem after_inexact :
    (¬∀ (t : Timestamp) (seconds : Nat), t.SumFits seconds →
      ∀ later, t.after? seconds = some later →
        later.zone = t.zone ∧ later.secondsSince t = seconds) ∧
    ¬∀ (t : Timestamp) (seconds : Nat), t.SumFits seconds →
      ¬YearFits (t.toUnix + seconds) t.zone → t.after? seconds = none := by
  have hfits : afternoon.SumFits 2005000000000 := ⟨by decide, by decide, by decide⟩
  have hwrong : afternoon.after? 2005000000000 = some ⟨11, 2, 22, 2, 52, 20, 0⟩ := by decide
  constructor
  · intro h
    have hsince := (h afternoon 2005000000000 hfits _ hwrong).2
    exact absurd hsince (by decide)
  · intro h
    have hyear : ¬YearFits (afternoon.toUnix + (2005000000000 : Nat)) afternoon.zone := by
      rw [← toUnix_ofUnix_iff]
      decide
    rw [h afternoon 2005000000000 hfits hyear] at hwrong
    cases hwrong

end ShortMessage.Timestamp
