/-!
# Dates of the calendar

A date is a day number, counted from the first of January of year 1, or a year, a month and a day. Leap years repeat
every 400 years, so a day number splits into whole cycles of 400, 100, 4 and 1 years and a day of the year.

* `dayNumber_ofDayNumber`: the date of a day number has that day number.
-/

namespace AccessPlan.Calendar

/-- A year, a month and a day, each counted from one. -/
structure Date where
  year : Nat
  month : Nat
  day : Nat
  deriving DecidableEq, Repr

/-- Every fourth year is a leap year, but of the full centuries only every fourth. -/
def isLeap (year : Nat) : Bool :=
  decide (year % 4 = 0 ∧ (year % 100 ≠ 0 ∨ year % 400 = 0))

/-- The lengths of the months. -/
def monthLengths (leap : Bool) : List Nat :=
  [31, if leap then 29 else 28, 31, 30, 31, 30, 31, 31, 30, 31, 30, 31]

def daysInMonth (year month : Nat) : Nat := (monthLengths (isLeap year)).getD (month - 1) 0

/-- The number of days before the first of January of a year. -/
def daysBeforeYear (year : Nat) : Nat :=
  let past := year - 1
  365 * past + past / 4 - past / 100 + past / 400

/-- The number of days of the year before the first of a month. -/
def daysBeforeMonth (leap : Bool) (month : Nat) : Nat := ((monthLengths leap).take (month - 1)).foldr (· + ·) 0

/-- The number of days from the first of January of year 1 to the date. -/
def Date.dayNumber (d : Date) : Nat :=
  daysBeforeYear d.year + daysBeforeMonth (isLeap d.year) d.month + (d.day - 1)

/-- The number of whole months that fit into `days`, and the days left over. -/
def splitMonths : List Nat → (days : Nat) → Nat × Nat
  | [], days => (0, days)
  | length :: lengths, days =>
    if days < length then (0, days)
    else
      let (months, rest) := splitMonths lengths (days - length)
      (months + 1, rest)

/-- The year of a day number and the number of days of that year before it. -/
def splitYear (n : Nat) : Nat × Nat :=
  let inCycle := n % 146097
  let hundreds := min 3 (inCycle / 36524)
  let inHundred := inCycle - 36524 * hundreds
  let inFour := inHundred % 1461
  let ones := min 3 (inFour / 365)
  (400 * (n / 146097) + 100 * hundreds + 4 * (inHundred / 1461) + ones + 1, inFour - 365 * ones)

/-- The date of a day number. -/
def Date.ofDayNumber (n : Nat) : Date :=
  let (year, dayOfYear) := splitYear n
  let (months, days) := splitMonths (monthLengths (isLeap year)) dayOfYear
  ⟨year, months + 1, days + 1⟩

/-- The first day number after year 9999, the last year of the calendar. -/
def dayLimit : Nat := 3652059

theorem sum_splitMonths : ∀ (lengths : List Nat) (days : Nat),
    (lengths.take (splitMonths lengths days).1).foldr (· + ·) 0 + (splitMonths lengths days).2 = days
  | [], days => by simp [splitMonths]
  | length :: lengths, days => by
    unfold splitMonths
    split
    · simp
    · rename_i h
      have ih := sum_splitMonths lengths (days - length)
      simp only [List.take_succ_cons, List.foldr_cons]
      omega

theorem daysBeforeYear_cycles {q c f o : Nat} (hc : c ≤ 3) (hf : f ≤ 24) (ho : o ≤ 3) :
    daysBeforeYear (400 * q + 100 * c + 4 * f + o + 1) = 146097 * q + 36524 * c + 1461 * f + 365 * o := by
  have h4 : (400 * q + 100 * c + 4 * f + o) / 4 = 100 * q + 25 * c + f := by omega
  have h100 : (400 * q + 100 * c + 4 * f + o) / 100 = 4 * q + c := by omega
  have h400 : (400 * q + 100 * c + 4 * f + o) / 400 = q := by omega
  simp only [daysBeforeYear, Nat.add_sub_cancel, h4, h100, h400]
  omega

theorem daysBeforeYear_splitYear (n : Nat) : daysBeforeYear (splitYear n).1 + (splitYear n).2 = n := by
  simp only [splitYear]
  rw [daysBeforeYear_cycles (by omega) (by omega) (by omega)]
  omega

/-- The date of a day number has that day number. -/
theorem dayNumber_ofDayNumber (n : Nat) : (Date.ofDayNumber n).dayNumber = n := by
  simp only [Date.ofDayNumber, Date.dayNumber, daysBeforeMonth, Nat.add_sub_cancel]
  rw [Nat.add_assoc, sum_splitMonths, daysBeforeYear_splitYear]

end AccessPlan.Calendar
