import ProtoBindings.Calendar.Date

namespace ProtoBindings.Calendar

structure DateTime where
  date : Date
  hour : Nat
  minute : Nat
  second : Nat
  microsecond : Nat
  deriving DecidableEq, Repr

inductive DateTimeError
  | aboveWord
  | belowWord
  | beyondWords
  | year (value : Int)
  | month
  | day
  | hour
  | minute
  | second
  | microsecond
  deriving DecidableEq, Repr

def DateTimeError.message : DateTimeError → String
  | aboveWord => "signed integer is greater than maximum"
  | belowWord => "signed integer is less than minimum"
  | beyondWords => "Python int too large to convert to C long"
  | year value => "year " ++ toString value ++ " is out of range"
  | month => "month must be in 1..12"
  | day => "day is out of range for month"
  | hour => "hour must be in 0..23"
  | minute => "minute must be in 0..59"
  | second => "second must be in 0..59"
  | microsecond => "microsecond must be in 0..999999"

def maxYear : Nat := 9999

def secondsPerDay : Nat := 86400

def microsPerSecond : Nat := 1000000

namespace DateTime

def ofParts (year month day hour minute second microsecond : Int) :
    Except DateTimeError DateTime :=
  if year < 1 ∨ (maxYear : Int) < year then .error (.year year)
  else if month < 1 ∨ 12 < month then .error .month
  else if day < 1 ∨ (daysInMonth year.toNat month.toNat : Int) < day then .error .day
  else if hour < 0 ∨ 23 < hour then .error .hour
  else if minute < 0 ∨ 59 < minute then .error .minute
  else if second < 0 ∨ 59 < second then .error .second
  else if microsecond < 0 ∨ 999999 < microsecond then .error .microsecond
  else .ok ⟨⟨year.toNat, month.toNat, day.toNat⟩, hour.toNat, minute.toNat, second.toNat,
    microsecond.toNat⟩

def fitWord (part : Int) : Except DateTimeError Unit :=
  if part < -9223372036854775808 ∨ 9223372036854775807 < part then .error .beyondWords
  else if 2147483647 < part then .error .aboveWord
  else if part < -2147483648 then .error .belowWord
  else .ok ()

/-- Parts that are any numbers. The first that does not fit 32 bits comes before all that are out of
    range. -/
def ofNumbers (year month day hour minute second microsecond : Int) :
    Except DateTimeError DateTime := do
  [year, month, day, hour, minute, second, microsecond].forM fitWord
  ofParts year month day hour minute second microsecond

def toMicros (t : DateTime) : Nat :=
  (((t.date.toDays * 24 + t.hour) * 60 + t.minute) * 60 + t.second) * microsPerSecond +
    t.microsecond

def ofMicros (micros : Nat) : DateTime :=
  let seconds := micros / microsPerSecond
  let inDay := seconds % secondsPerDay
  ⟨.ofDays (seconds / secondsPerDay), inDay / 3600, inDay / 60 % 60, inDay % 60,
    micros % microsPerSecond⟩

def endMicros : Nat := daysBeforeYear (maxYear + 1) * secondsPerDay * microsPerSecond

def epochSeconds : Nat := daysBeforeYear 1970 * secondsPerDay

def parts (t : DateTime) : List Nat :=
  [t.date.year, t.date.month, t.date.day, t.hour, t.minute, t.second, t.microsecond]

def epoch : DateTime := ⟨⟨1970, 1, 1⟩, 0, 0, 0, 0⟩

def add? (t : DateTime) (micros : Int) : Option DateTime :=
  let later := t.toMicros + micros
  if later < 0 ∨ (endMicros : Int) ≤ later then none else some (.ofMicros later.toNat)

def timegm (t : DateTime) : Int :=
  let first : Date := ⟨t.date.year, t.date.month, 1⟩
  let days : Int := first.toDays - epoch.date.toDays + t.date.day - 1
  let hours := days * 24 + t.hour
  let minutes := hours * 60 + t.minute
  minutes * 60 + t.second

end DateTime

structure Moment where
  shown : DateTime
  offset : Option Int
  deriving DecidableEq, Repr

def Moment.utc? (m : Moment) : Option DateTime :=
  match m.offset with
  | none => some m.shown
  | some offset => m.shown.add? (-offset)

end ProtoBindings.Calendar
