import ProtoBindings.Calendar.DateTime
import ProtoBindings.Native.Time
import ProtoBindings.Number.Numeral
import ProtoBindings.Text.Basic

namespace ProtoBindings.Native

open Calendar (DateTime DateTimeError)
open Number (double NumeralError)
open Text (CodePoints)

inductive FractionError
  | numeral (error : NumeralError)
  | infinite
  deriving DecidableEq, Repr

/-- The nanoseconds of a numeral that counts seconds. -/
def readNanos (numeral : CodePoints) : Except FractionError Int :=
  match Number.readReal numeral with
  | .error e => .error (.numeral e)
  | .ok bits =>
    let magnitude := double.magnitude bits
    let product := if magnitude = double.infinity then magnitude else double.times magnitude 1000000000
    if product = double.infinity then .error .infinite
    else
      let nanos := double.round product
      .ok (if double.isNegative bits then -(nanos : Int) else nanos)

inductive DurationError
  | seconds (value : Int)
  | nanos (value : Int)
  | sign
  deriving DecidableEq, Repr

def DurationError.message : DurationError → String
  | seconds value => "Duration is not valid: Seconds " ++ toString value ++
      " must be in range [-315576000000, 315576000000]."
  | nanos value => "Duration is not valid: Nanos " ++ toString value ++
      " must be in range [-999999999, 999999999]."
  | sign => "Duration is not valid: Sign mismatch."

def Duration.validate (d : Duration) : Except DurationError Duration :=
  if d.seconds < -315576000000 ∨ 315576000000 < d.seconds then .error (.seconds d.seconds)
  else if d.nanos ≤ -1000000000 ∨ 1000000000 ≤ d.nanos then .error (.nanos d.nanos)
  else if (d.nanos < 0 ∧ 0 < d.seconds) ∨ (0 < d.nanos ∧ d.seconds < 0) then .error .sign
  else .ok d

inductive DurationFault
  | numeral (error : NumeralError)
  | invalid (error : DurationError)
  deriving DecidableEq, Repr

def DurationFault.message : DurationFault → String
  | numeral error => error.message
  | invalid error => error.message

inductive DurationTextError
  | noUnit (text : String)
  | content (text : String) (fault : DurationFault)
  | infinite
  deriving DecidableEq, Repr

def DurationTextError.message : DurationTextError → String
  | noUnit text => "Duration must end with letter \"s\": " ++ text ++ "."
  | content text fault => "Couldn't parse duration: " ++ text ++ " : " ++ fault.message ++ "."
  | infinite => "cannot convert float infinity to integer"

namespace Duration

def ofCodes (codes : CodePoints) : Except DurationTextError Duration := do
  let text := codes.toText
  if codes.getLast? ≠ some 's'.toNat then throw (.noUnit text)
  let body : CodePoints := codes.dropLast
  let (whole, fraction) := body.cut '.'
  let seconds ← (Number.readInteger whole).mapError fun e => .content text (.numeral e)
  let sign := if codes.head? = some '-'.toNat then "-" else ""
  let nanos ← if !body.has '.' then pure 0
    else (readNanos (.ofText (sign ++ "0.") ++ fraction)).mapError fun
      | .numeral e => .content text (.numeral e)
      | .infinite => .infinite
  (Duration.validate ⟨seconds, nanos⟩).mapError fun e => .content text (.invalid e)

end Duration

inductive TimestampTextError
  | noOffset
  | smallT (time : String)
  | form (time : CodePoints)
  | extra (rest : String)
  | date (error : DateTimeError)
  | longFraction (digits : String)
  | fraction (error : FractionError)
  | trailing (text : String)
  | offset (text : String)
  | numeral (error : NumeralError)
  | invalid (error : TimestampError)
  deriving DecidableEq, Repr

def timeForm : String := "'%Y-%m-%dT%H:%M:%S'"

def TimestampTextError.message : TimestampTextError → String
  | noOffset => "Failed to parse timestamp: missing valid timezone offset."
  | smallT time => "time data '" ++ time ++ "' does not match format " ++ timeForm ++
      ", lowercase 't' is not accepted"
  | form time => "time data " ++ time.quotation ++ " does not match format " ++ timeForm
  | extra rest => "unconverted data remains: " ++ rest
  | date error => error.message
  | longFraction digits =>
    "Failed to parse Timestamp: nanos " ++ digits ++ " more than 9 fractional digits."
  | fraction (.numeral error) => error.message
  | fraction .infinite => "cannot convert float infinity to integer"
  | trailing text => "Failed to parse timestamp: invalid trailing data " ++ text ++ "."
  | offset text => "Invalid timezone offset value: " ++ text ++ "."
  | numeral error => error.message
  | invalid error => error.message

def among (low high : Char) (c : Char) : Bool := decide (low ≤ c) && decide (c ≤ high)

def anyDigit (c : Char) : Bool := (Unicode.digit? c).isSome

structure TimePart where
  shapes : List (List (Char → Bool))
  separator : Option Char

def timeParts : List TimePart :=
  [⟨[[anyDigit, anyDigit, anyDigit, anyDigit]], some '-'⟩,
    ⟨[[(· = '1'), among '0' '2'], [(· = '0'), among '1' '9'], [among '1' '9']], some '-'⟩,
    ⟨[[(· = '3'), among '0' '1'], [among '1' '2', anyDigit], [(· = '0'), among '1' '9'],
      [among '1' '9'], [(· = ' '), among '1' '9']], some 'T'⟩,
    ⟨[[(· = '2'), among '0' '3'], [among '0' '1', anyDigit], [anyDigit]], some ':'⟩,
    ⟨[[among '0' '5', anyDigit], [anyDigit]], some ':'⟩,
    ⟨[[(· = '6'), among '0' '1'], [among '0' '5', anyDigit], [anyDigit]], none⟩]

def fitShape? (separator : Option Char) (shape : List (Char → Bool)) (cs : List Char) :
    Option (List Char × List Char) :=
  let size := shape.length
  if cs.length < size ∨ !(shape.zip cs).all fun (fits, c) => fits c then none
  else
    match separator, cs.drop size with
    | none, rest => some (cs.take size, rest)
    | some mark, c :: rest => if c = mark then some (cs.take size, rest) else none
    | some _, [] => none

def readTimeParts? : List TimePart → List Char → Option (List Int × List Char)
  | [], cs => some ([], cs)
  | part :: parts, cs => do
    let (digits, rest) ← part.shapes.findSome? fun shape => fitShape? part.separator shape cs
    let n ← Number.integer? digits
    let (later, after) ← readTimeParts? parts rest
    return (n :: later, after)

def readDateTime (codes : CodePoints) : Except TimestampTextError DateTime :=
  match readTimeParts? timeParts codes.chars with
  | some ([year, month, day, hour, minute, second], []) =>
    match DateTime.ofParts year month day hour minute second 0 with
    | .ok t => .ok t
    | .error e => .error (.date e)
  | some ([_, _, _, _, _, _], rest) => .error (.extra (String.ofList rest))
  | _ => .error (.form codes)

/-- The place of the zone: the first `Z`, else the first plus, else the last minus. -/
def zoneIndex? (codes : CodePoints) : Option Nat :=
  if codes.has 'Z' then some (codes.idxOf 'Z'.toNat)
  else if codes.has '+' then some (codes.idxOf '+'.toNat)
  else if codes.has '-' then some (codes.length - 1 - codes.reverse.idxOf '-'.toNat)
  else none

def readZone (text : String) : (zone : CodePoints) → Except TimestampTextError Int
  | [] => .ok 0
  | sign :: rest =>
    if sign = 'Z'.toNat then if rest = [] then .ok 0 else .error (.trailing text)
    else if !CodePoints.has ':' rest then .error (.offset (CodePoints.toText (sign :: rest)))
    else do
      let (hours, minutes) := CodePoints.cut ':' rest
      let hours ← (Number.readInteger hours).mapError .numeral
      let minutes ← (Number.readInteger minutes).mapError .numeral
      let seconds := (hours * 60 + minutes) * 60
      return if sign = '+'.toNat then seconds else -seconds

namespace Timestamp

def ofCodes (codes : CodePoints) : Except TimestampTextError Timestamp := do
  let some index := zoneIndex? codes | throw .noOffset
  let (time, fraction) := CodePoints.cut '.' (codes.take index)
  if time.has 't' then throw (.smallT time.toText)
  let shown ← readDateTime time
  if 9 < fraction.length then throw (.longFraction fraction.toText)
  let nanos ← if fraction = [] then pure 0
    else (readNanos (.ofText "0." ++ fraction)).mapError .fraction
  let east ← readZone codes.toText (codes.drop index)
  let seconds := (shown.toMicros / Calendar.microsPerSecond : Nat) - (DateTime.epochSeconds : Int) - east
  (Timestamp.validate ⟨seconds, nanos⟩).mapError .invalid

end Timestamp

end ProtoBindings.Native
