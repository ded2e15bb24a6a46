namespace ProtoBindings.Calendar

/-- A length of time to the microsecond: days, which may go back, and the rest, which counts forward. -/
structure TimeDelta where
  days : Int
  seconds : Nat
  microseconds : Nat
  deriving DecidableEq, Repr

inductive TimeDeltaError
  | tooManyDays (days : Int)
  | days32
  deriving DecidableEq, Repr

def TimeDeltaError.message : TimeDeltaError → String
  | tooManyDays days => "days=" ++ toString days ++ "; must have magnitude <= 999999999"
  | days32 => "Python int too large to convert to C int"

namespace TimeDelta

def micros (t : TimeDelta) : Int := (t.days * 86400 + t.seconds) * 1000000 + t.microseconds

def ofMicros (micros : Int) : Except TimeDeltaError TimeDelta :=
  let seconds := micros / 1000000
  let days := seconds / 86400
  if days < -2147483648 ∨ 2147483648 ≤ days then .error .days32
  else if days < -999999999 ∨ 999999999 < days then .error (.tooManyDays days)
  else .ok ⟨days, (seconds % 86400).toNat, (micros % 1000000).toNat⟩

def ofParts (days seconds microseconds : Int) : Except TimeDeltaError TimeDelta :=
  ofMicros ((days * 86400 + seconds) * 1000000 + microseconds)

def shown (t : TimeDelta) : String :=
  let parts := [("days", t.days), ("seconds", (t.seconds : Int)),
    ("microseconds", (t.microseconds : Int))].filter (·.2 ≠ 0)
  let texts := parts.map fun (name, value) => name ++ "=" ++ toString value
  "datetime.timedelta(" ++ (if texts = [] then "0" else ", ".intercalate texts) ++ ")"

end TimeDelta

inductive OffsetError
  | tooLong (error : TimeDeltaError)
  | wholeDay (delta : TimeDelta)
  deriving DecidableEq, Repr

def OffsetError.message : OffsetError → String
  | tooLong error => error.message
  | wholeDay delta =>
    "offset must be a timedelta strictly between -timedelta(hours=24) and timedelta(hours=24), not " ++
      delta.shown ++ "."

/-- The microseconds that a clock is east of universal time, less than a day. -/
def readOffset (seconds microseconds : Int) : Except OffsetError Int := do
  let delta ← (TimeDelta.ofParts 0 seconds microseconds).mapError .tooLong
  if delta.micros ≤ -86400000000 ∨ 86400000000 ≤ delta.micros then throw (.wholeDay delta)
  return delta.micros

end ProtoBindings.Calendar
