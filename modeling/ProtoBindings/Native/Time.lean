import ProtoBindings.Number.Integer

namespace ProtoBindings.Native

open Number (OutOfRange fitSigned)

structure Timestamp where
  seconds : Int
  nanos : Int
  deriving DecidableEq, Repr

inductive TimestampError
  | seconds (value : Int)
  | nanos (value : Int)
  deriving DecidableEq, Repr

def TimestampError.message : TimestampError → String
  | seconds value => Number.showing value fun shown =>
    "Timestamp is not valid: Seconds " ++ shown ++
      " must be in range [-62135596800, 253402300799]."
  | nanos value =>
    "Timestamp is not valid: Nanos " ++ toString value ++ " must be in a range [0, 999999]."

namespace Timestamp

def ofFields (seconds nanos : Int) : Except OutOfRange Timestamp := do
  return ⟨← fitSigned 64 seconds, ← fitSigned 32 nanos⟩

def validate (t : Timestamp) : Except TimestampError Timestamp :=
  if t.seconds < -62135596800 ∨ 253402300799 < t.seconds then .error (.seconds t.seconds)
  else if t.nanos < 0 ∨ 999999999 < t.nanos then .error (.nanos t.nanos)
  else .ok t

end Timestamp

structure Duration where
  seconds : Int
  nanos : Int
  deriving DecidableEq, Repr

namespace Duration

def ofFields (seconds nanos : Int) : Except OutOfRange Duration := do
  return ⟨← fitSigned 64 seconds, ← fitSigned 32 nanos⟩

def normalized (seconds nanos : Int) : Duration :=
  if seconds < 0 ∧ 0 < nanos then ⟨seconds + 1, nanos - 1000000000⟩ else ⟨seconds, nanos⟩

end Duration

end ProtoBindings.Native
