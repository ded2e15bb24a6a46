namespace ProtoBindings.Calendar

/-- The calendar is carried back to the year 1, whose first day is day 0. -/
structure Date where
  year : Nat
  month : Nat
  day : Nat
  deriving DecidableEq, Repr

def isLeap (year : Nat) : Bool := year % 4 == 0 && (year % 100 != 0 || year % 400 == 0)

def daysBeforeMonth (leap : Bool) : Nat → Nat
  | 0 | 1 => 0
  | 2 => 31
  | month + 3 =>
    let later := [59, 90, 120, 151, 181, 212, 243, 273, 304, 334, 365]
    later[month]?.getD 365 + if leap then 1 else 0

def daysInMonth (year month : Nat) : Nat :=
  daysBeforeMonth (isLeap year) (month + 1) - daysBeforeMonth (isLeap year) month

def daysBeforeYear (year : Nat) : Nat :=
  let past := year - 1
  past * 365 + past / 4 - past / 100 + past / 400

def Date.toDays (d : Date) : Nat :=
  daysBeforeYear d.year + daysBeforeMonth (isLeap d.year) d.month + (d.day - 1)

def monthOf (leap : Bool) (day : Nat) : Nat :=
  ((List.range 12).filter fun month => decide (daysBeforeMonth leap (month + 1) ≤ day)).length

/-- Splits a day number into cycles of 400, 100, 4 and 1 years. The last day of a leap cycle would
    make a fifth part of a cycle of four, and counts for the fourth. -/
def Date.ofDays (days : Nat) : Date :=
  let inEra := days % 146097
  let century := min (inEra / 36524) 3
  let inCentury := inEra - century * 36524
  let inFour := inCentury % 1461
  let single := min (inFour / 365) 3
  let year := days / 146097 * 400 + century * 100 + inCentury / 1461 * 4 + single + 1
  let day := inFour - single * 365
  let month := monthOf (isLeap year) day
  ⟨year, month, day - daysBeforeMonth (isLeap year) month + 1⟩

end ProtoBindings.Calendar
