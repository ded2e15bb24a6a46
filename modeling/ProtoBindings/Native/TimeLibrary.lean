import ProtoBindings.Calendar.DateTime
import ProtoBindings.Calendar.TimeDelta
import ProtoBindings.Native.Time

namespace ProtoBindings.Native

open Calendar (DateTime Moment TimeDelta TimeDeltaError)

/-- The conversions that the host messages for times bring along, with their errors. A zone is given in
    microseconds to the east. -/
structure TimeLibrary (ε : Type) where
  toDateTime : Timestamp → (zone : Int) → Except ε Moment
  fromDateTime : Moment → Except ε Timestamp
  toTimeDelta : Duration → Except ε TimeDelta
  fromTimeDelta : TimeDelta → Except ε Duration

section Conversions

variable {ε : Type} (library : TimeLibrary ε)

def timestampToDateTime (t : Timestamp) : Except ε Moment := library.toDateTime t 0

/-- A date and time without an offset is taken to be in universal time. -/
def dateTimeToTimestamp (value : Moment) : Except ε Timestamp :=
  library.fromDateTime (if value.offset.isNone then { value with offset := some 0 } else value)

def durationToTimeDelta (d : Duration) : Except ε TimeDelta := library.toTimeDelta d

def timeDeltaToDuration (t : TimeDelta) : Except ε Duration := library.fromTimeDelta t

end Conversions

inductive TimeError
  | timestamp (error : TimestampError)
  | timeDelta (error : TimeDeltaError)
  | outsideYears
  deriving DecidableEq, Repr

def TimeError.message : TimeError → String
  | timestamp error => error.message
  | timeDelta error => error.message
  | outsideYears => "date value out of range"

def orOutside (t : Option DateTime) : Except TimeError DateTime :=
  match t with
  | some t => .ok t
  | none => .error .outsideYears

/-- The library that the program runs with. -/
def hostTimes : TimeLibrary TimeError where
  toDateTime t zone := do
    let t ← t.validate.mapError .timestamp
    let delta ← (TimeDelta.ofParts 0 t.seconds (Int.tdiv t.nanos 1000)).mapError .timeDelta
    let utc ← orOutside (DateTime.epoch.add? delta.micros)
    let shown ← orOutside (utc.add? zone)
    return ⟨shown, some zone⟩
  fromDateTime m := do
    let utc ← orOutside m.utc?
    return ⟨utc.timegm, m.shown.microsecond * 1000⟩
  toTimeDelta d := (TimeDelta.ofParts 0 d.seconds (Int.tdiv d.nanos 1000)).mapError .timeDelta
  fromTimeDelta t := .ok (.normalized (t.days * 86400 + t.seconds) (t.microseconds * 1000))

end ProtoBindings.Native
