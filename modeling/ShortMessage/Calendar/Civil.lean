/-!
# Days and dates

Days are counted from the first of January 1970.  `dayNumber` counts the days up to a date and
`dateOfDay` finds the date of a day, in the calendar that has a leap year every four years except
in three of four centuries.  Both count years from March, so that a leap day comes last, and in
eras of 400 years, which all have the same 146097 days.
-/

namespace ShortMessage.Civil

/-- Days of an era of 400 years. -/
def daysPerEra : Int := 146097

/-- Days from the first day of the era before to the first of January 1970. -/
def daysToEpoch : Int := 719468

/-- The number of days from the first of January 1970 to a date. -/
def dayNumber (year month day : Int) : Int :=
  let y := if month ≤ 2 then year - 1 else year
  let era := y / 400
  let yearOfEra := y - era * 400
  let monthFromMarch := (month + 9) % 12
  let dayOfYear := (153 * monthFromMarch + 2) / 5 + day - 1
  let dayOfEra := yearOfEra * 365 + yearOfEra / 4 - yearOfEra / 100 + dayOfYear
  era * daysPerEra + dayOfEra - daysToEpoch

/-- The year, month and day of a number of days from the first of January 1970. -/
def dateOfDay (days : Int) : Int × Int × Int :=
  let z := days + daysToEpoch
  let era := z / daysPerEra
  let dayOfEra := z - era * daysPerEra
  let yearOfEra :=
    (dayOfEra - dayOfEra / 1460 + dayOfEra / 36524 - dayOfEra / 146096) / 365
  let dayOfYear := dayOfEra - (365 * yearOfEra + yearOfEra / 4 - yearOfEra / 100)
  let monthFromMarch := (5 * dayOfYear + 2) / 153
  let day := dayOfYear - (153 * monthFromMarch + 2) / 5 + 1
  let month := if monthFromMarch < 10 then monthFromMarch + 3 else monthFromMarch - 9
  let year := yearOfEra + era * 400 + (if month ≤ 2 then 1 else 0)
  (year, month, day)

end ShortMessage.Civil
