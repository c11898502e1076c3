import Mathlib.Algebra.Order.Group.Int

/-!
# The Gregorian calendar

Days are numbered from the first of January 1970, on either side, and years are those of the
proleptic Gregorian calendar, with a year 0. A clock reading is a date and a time of day; seconds
are counted from the start of day 0, without leap seconds.
-/

namespace PacketDial.Lib

/-- A leap year. -/
def isLeapYear (year : Int) : Bool := year % 4 = 0 && (year % 100 ≠ 0 || year % 400 = 0)

/-- The days from the first of January of the year 0 to that of a year. -/
def daysBeforeYear (year : Int) : Int :=
  365 * year + (year + 3) / 4 - (year + 99) / 100 + (year + 399) / 400

/-- How many days February is short of thirty. -/
def shortOf (year : Int) : Int := if isLeapYear year then 1 else 2

/-- The days of a year before the first of a month. -/
def daysBeforeMonth (year month : Int) : Int :=
  (367 * month - 362) / 12 - if month ≤ 2 then 0 else shortOf year

/-- The first of January 1970, counted from that of the year 0. -/
def epochDay : Int := 719528

/-- The number of a day. -/
def dayNumber (year month day : Int) : Int :=
  daysBeforeYear year + daysBeforeMonth year month + (day - 1) - epochDay

/-- A date. -/
structure Date where
  year : Int
  month : Int
  day : Int
  deriving DecidableEq, Repr

/-- The year of a day: the mean length of a year tells it but for one. -/
def yearOf (n : Int) : Int :=
  let guess := 400 * (n + epochDay) / 146097
  if daysBeforeYear (guess + 1) ≤ n + epochDay then guess + 1
  else if daysBeforeYear guess ≤ n + epochDay then guess
  else guess - 1

/-- The date of a day. -/
def dateOf (n : Int) : Date :=
  let year := yearOf n
  let ofYear := n + epochDay - daysBeforeYear year
  let ofMarch := daysBeforeMonth year 3
  let month := (12 * (ofYear + if ofYear < ofMarch then 0 else shortOf year) + 373) / 367
  ⟨year, month, ofYear - daysBeforeMonth year month + 1⟩

/-- A year has 366 days if it is a leap year and 365 if not. -/
theorem daysBeforeYear_succ (year : Int) :
    daysBeforeYear (year + 1) = daysBeforeYear year + 367 - shortOf year := by
  simp only [daysBeforeYear, shortOf, isLeapYear, Bool.and_eq_true, Bool.or_eq_true,
    decide_eq_true_eq]
  split <;> omega

/-- A day is in its year. -/
theorem daysBeforeYear_yearOf (n : Int) :
    daysBeforeYear (yearOf n) ≤ n + epochDay ∧ n + epochDay < daysBeforeYear (yearOf n + 1) := by
  unfold yearOf
  dsimp only
  generalize n + epochDay = k
  generalize hguess : 400 * k / 146097 = guess
  have hlow : daysBeforeYear (guess - 1) ≤ k := by
    unfold daysBeforeYear
    omega
  have hhigh : k < daysBeforeYear (guess + 1 + 1) := by
    unfold daysBeforeYear
    omega
  split
  · exact ⟨by assumption, hhigh⟩
  · split
    · exact ⟨by assumption, by omega⟩
    · rw [sub_add_cancel]
      exact ⟨hlow, by omega⟩

/-- The day of a date is the day that it is the date of. -/
theorem dayNumber_dateOf (n : Int) :
    dayNumber (dateOf n).year (dateOf n).month (dateOf n).day = n := by
  unfold dayNumber dateOf
  dsimp only
  omega

/-- February is one or two days short. -/
theorem shortOf_eq (year : Int) : shortOf year = 1 ∨ shortOf year = 2 := by
  unfold shortOf
  split
  · exact .inl rfl
  · exact .inr rfl

/-- The months are numbered from 1 to 12. -/
theorem month_dateOf (n : Int) : 1 ≤ (dateOf n).month ∧ (dateOf n).month ≤ 12 := by
  obtain ⟨hlow, hhigh⟩ := daysBeforeYear_yearOf n
  rw [daysBeforeYear_succ] at hhigh
  have hshort := shortOf_eq (yearOf n)
  simp only [dateOf, daysBeforeMonth]
  split <;> omega

/-- The days of a month are numbered from 1 to at most 31. -/
theorem day_dateOf (n : Int) : 1 ≤ (dateOf n).day ∧ (dateOf n).day ≤ 31 := by
  obtain ⟨hlow, hhigh⟩ := daysBeforeYear_yearOf n
  rw [daysBeforeYear_succ] at hhigh
  have hshort := shortOf_eq (yearOf n)
  simp only [dateOf, daysBeforeMonth]
  split <;> split <;> omega

/-- A date and a time of day. -/
structure ClockReading extends Date where
  hour : Int
  minute : Int
  second : Int
  deriving DecidableEq, Repr

/-- What a clock without offset reads after a number of seconds. -/
def readingOf (seconds : Int) : ClockReading where
  toDate := dateOf (seconds / 86400)
  hour := seconds % 86400 / 3600
  minute := seconds % 3600 / 60
  second := seconds % 60

/-- The seconds until a clock without offset has a reading. Months beyond the year count on into
the years around it. -/
def secondsUntil (r : ClockReading) : Int :=
  dayNumber (r.year + (r.month - 1) / 12) ((r.month - 1) % 12 + 1) r.day * 86400 + r.hour * 3600 +
    r.minute * 60 + r.second

/-- The reading at a moment is reached at it. -/
theorem secondsUntil_readingOf (seconds : Int) : secondsUntil (readingOf seconds) = seconds := by
  have hmonth := month_dateOf (seconds / 86400)
  have hyear : ((dateOf (seconds / 86400)).month - 1) / 12 = 0 := by omega
  have hwithin : ((dateOf (seconds / 86400)).month - 1) % 12 + 1 =
      (dateOf (seconds / 86400)).month := by omega
  simp only [secondsUntil, readingOf, hyear, hwithin, add_zero, dayNumber_dateOf]
  omega

/-- The months of an ordinary year and of a leap year begin where they should. -/
example : [1, 2, 3, 4, 5, 6, 7, 8, 9, 10, 11, 12].map (daysBeforeMonth 2023) =
    [0, 31, 59, 90, 120, 151, 181, 212, 243, 273, 304, 334] := by decide

end PacketDial.Lib
