import ProtoBindings.Json.Parse
import ProtoBindings.Native.TimeText
import ProtoBindings.Native.Message
import ProtoBindings.Text.Base64

namespace ProtoBindings.Native

open Json (Value)
open Number (NumeralError OutOfRange double single)
open Text (CodePoints)
open Wire (Bytes)

inductive Refusal
  | fraction (bits : Nat)
  | spacedInteger (text : String)
  | fractionText (text : String)
  | truthAsInteger (value : Bool)
  | bareNaN
  | bareInfinity (negative : Bool)
  | beyondSingle (negative : Bool)
  | smallNaN
  | notReal (text : String)
  | notTruth
  | loneHalf
  deriving DecidableEq, Repr

def Refusal.message : Refusal → String
  | fraction bits => "Couldn't parse integer: " ++ Number.realText bits
  | spacedInteger text => "Couldn't parse integer: \"" ++ text ++ "\""
  | fractionText text => "Couldn't parse non-integer string: \"" ++ text ++ "\""
  | truthAsInteger value =>
    "Bool value " ++ (Value.truth value).shown ++ " is not acceptable for integer field"
  | bareNaN => "Couldn't parse NaN, use quoted \"NaN\" instead"
  | bareInfinity false =>
    "Couldn't parse Infinity or value too large, use quoted \"Infinity\" instead"
  | bareInfinity true =>
    "Couldn't parse -Infinity or value too small, use quoted \"-Infinity\" instead"
  | beyondSingle negative => if negative then "Float value too small" else "Float value too large"
  | smallNaN => "Couldn't parse float \"nan\", use \"NaN\" instead"
  | notReal text => "Couldn't parse float: " ++ text
  | notTruth => "Expected true or false without quotes"
  | loneHalf => "Unpaired surrogate"

inductive Misfit
  | numeral (error : NumeralError)
  | notInteger (type : String)
  | notReal (type : String)
  | notText (type : String)
  | noSize (type : String)
  | listAsData
  | objectAsData
  | integerTooLarge
  | loneHalves (codes : CodePoints) (first : Nat)
  | base64 (fault : Text.Base64.Fault)
  | range (error : OutOfRange)
  | notIterable (type : String)
  | unhashable (type : String)
  | unreadableName
  | listIndex
  | infinite
  deriving DecidableEq, Repr

namespace Misfit

def typeError (message : String) : String × String := ("TypeError", message)

def report : Misfit → String × String
  | numeral error => ("ValueError", error.message)
  | notInteger type => typeError
      ("int() argument must be a string, a bytes-like object or a real number, not '" ++ type ++ "'")
  | notReal type => typeError
      ("float() argument must be a string or a real number, not '" ++ type ++ "'")
  | notText type => typeError ("expected string or bytes-like object, got '" ++ type ++ "'")
  | noSize type => typeError ("object of type '" ++ type ++ "' has no len()")
  | listAsData => typeError "can only concatenate list (not \"bytes\") to list"
  | objectAsData => typeError "unsupported operand type(s) for +: 'dict' and 'bytes'"
  | integerTooLarge => ("OverflowError", "int too large to convert to float")
  | loneHalves [code] first => ("UnicodeEncodeError",
      "'utf-8' codec can't encode character " ++ CodePoints.quotation [code] ++ " in position " ++
        toString first ++ ": surrogates not allowed")
  | loneHalves codes first => ("UnicodeEncodeError",
      "'utf-8' codec can't encode characters in position " ++ toString first ++ "-" ++
        toString (first + codes.length - 1) ++ ": surrogates not allowed")
  | base64 fault => ("Error", fault.message)
  | range error => ("ValueError", error.message)
  | notIterable type => typeError ("'" ++ type ++ "' object is not iterable")
  | unhashable type => typeError ("unhashable type: '" ++ type ++ "'")
  | unreadableName => ("SystemError", "<method 'get' of 'google._upb._message._ByNameMap' objects> " ++
      "returned a result with an exception set")
  | listIndex => typeError "list indices must be integers or slices, not str"
  | infinite => ("OverflowError", "cannot convert float infinity to integer")

end Misfit

inductive ScalarError
  | refused (reason : Refusal)
  | misfit (reason : Misfit)
  deriving DecidableEq, Repr

inductive MessageJsonError
  | json (source : String) (error : Json.Error)
  | refused (message : String) (place : String)
  | misfit (reason : Misfit)
  | field (name : String) (message : String)
  | unknownField (kind : MessageKind) (name : String)
  | noExtensions (kind : MessageKind)
  deriving DecidableEq, Repr

def readWhole (value : Value) : Except ScalarError Int :=
  match value with
  | .integer n => .ok n
  | .real bits =>
    match double.whole? bits with
    | some n => .ok n
    | none => .error (.refused (.fraction bits))
  | .truth b => .error (.refused (.truthAsInteger b))
  | .text codes =>
    let text := codes.toText
    if text.toList.contains ' ' then .error (.refused (.spacedInteger text))
    else
      match Number.readInteger codes, Number.real? codes.chars with
      | .ok n, _ => .ok n
      | .error e, none => .error (.misfit (.numeral e))
      | .error _, some bits =>
        match double.whole? bits with
        | some n => .ok n
        | none => .error (.refused (.fractionText text))
  | other => .error (.misfit (.notInteger other.typeName))

def singleLimit : Nat := ofSingle (single.infinity - 1)

def readBareReal (kind : WrapperKind) (bits : Nat) : Except ScalarError Nat :=
  let negative := double.isNegative bits
  if double.isNaN bits then .error (.refused .bareNaN)
  else if double.isInfinite bits then .error (.refused (.bareInfinity negative))
  else if kind = .float ∧ singleLimit < double.magnitude bits then
    .error (.refused (.beyondSingle negative))
  else .ok bits

def readRealOf (kind : WrapperKind) (value : Value) : Except ScalarError Nat :=
  match value with
  | .real bits => readBareReal kind bits
  | .integer n =>
    let magnitude := double.nearest ⟨n.natAbs, 1⟩
    if magnitude = double.infinity then .error (.misfit .integerTooLarge)
    else .ok (double.withSign (decide (n < 0)) magnitude)
  | .truth b => .ok (if b then double.nearest ⟨1, 1⟩ else 0)
  | .text codes =>
    let text := codes.toText
    if text = "nan" then .error (.refused .smallNaN)
    else
      match Number.real? codes.chars with
      | some bits => .ok bits
      | none => .error (.refused (.notReal text))
  | other => .error (.misfit (.notReal other.typeName))

def readText (value : Value) : Except ScalarError String :=
  match value with
  | .text codes =>
    if codes.hasHalf then .error (.refused .loneHalf) else .ok codes.toText
  | other => .error (.misfit (.notText other.typeName))

def readData (value : Value) : Except ScalarError Bytes :=
  match value with
  | .text codes =>
    let before := codes.takeWhile fun code => !Text.isHalf code
    let halves := (codes.drop before.length).takeWhile Text.isHalf
    if halves ≠ [] then .error (.misfit (.loneHalves halves before.length))
    else (Text.Base64.decode codes.toText).mapError fun fault => .misfit (.base64 fault)
  | .array _ => .error (.misfit .listAsData)
  | .object _ => .error (.misfit .objectAsData)
  | other => .error (.misfit (.noSize other.typeName))

def readTruth : Value → Except ScalarError Bool
  | .truth b => .ok b
  | _ => .error (.refused .notTruth)

def Wrapper.ofJson (kind : WrapperKind) (value : Value) : Except ScalarError Wrapper :=
  match kind with
  | .double | .float => (readRealOf kind value).map (ofReal kind)
  | .bool => (readTruth value).map fun b => ⟨kind, .truth b⟩
  | .string => (readText value).map fun s => ⟨kind, .text s⟩
  | .bytes => (readData value).map fun content => ⟨kind, .data content⟩
  | _ => do
    let n ← readWhole value
    (ofInt kind n).mapError fun e => .misfit (.range e)

def ScalarError.atPlace (place : String) : ScalarError → MessageJsonError
  | refused reason => .refused reason.message place
  | misfit reason => .misfit reason

def readTimestamp (value : Value) : Except MessageJsonError Timestamp :=
  match value with
  | .text codes => (Timestamp.ofCodes codes).mapError fun
    | .fraction .infinite => .misfit .infinite
    | e => .refused e.message "Timestamp"
  | other =>
    .error (.refused ("Timestamp JSON value not a string: " ++ other.shown) "Timestamp")

def readDuration (value : Value) : Except MessageJsonError Duration :=
  match value with
  | .text codes => (Duration.ofCodes codes).mapError fun
    | .infinite => .misfit .infinite
    | e => .refused e.message "Duration"
  | other => .error (.refused ("Duration JSON value not a string: " ++ other.shown) "Duration")

/-- What the names of fields are taken from, and the value of a field there. Also a list or a text
    gives names, but no values. -/
def fieldsOf (value : Value) : Except MessageJsonError (List (Value × Except Misfit Value)) :=
  match value with
  | .object members => .ok (members.map fun (name, v) => (.text name, .ok v))
  | .array items => .ok (items.map fun item => (item, .error .listIndex))
  | .text codes => .ok (codes.map fun code => (.text [code], .error .listIndex))
  | other => .error (.misfit (.notIterable other.typeName))

/-- Names in brackets, of letters, digits, underscores and dots, before a final line break or not. -/
def isExtensionName (name : String) : Bool :=
  let isPart (c : Char) := c.isAlphanum || c == '.' || c == '_'
  match (Text.dropEnding "\n" name).toList with
  | '[' :: rest => rest.getLast? == some ']' && rest.dropLast.all isPart
  | _ => false

def MessageKind.fieldNames : MessageKind → List String
  | .sourceContext => ["fileName"]
  | _ => []

def MessageKind.schemaNames : MessageKind → List String
  | .sourceContext => ["file_name"]
  | _ => []

/-- The schema's names are compared up to a null character. -/
def MessageKind.hasField (kind : MessageKind) (name : String) : Bool :=
  kind.fieldNames.contains name ||
    kind.schemaNames.contains (String.ofList (name.toList.takeWhile (· ≠ '\x00')))

def fieldMisfit (name : Value) (reason : Misfit) : MessageJsonError :=
  .field name.plain reason.report.2

def fieldName (kind : MessageKind) (ignoreUnknown : Bool) (name : Value) :
    Except MessageJsonError (Option String) :=
  match name with
  | .text codes =>
    let text := codes.toText
    if codes.hasHalf then .error (.misfit .unreadableName)
    else if kind.hasField text then .ok (some text)
    else if isExtensionName text then .error (.noExtensions kind)
    else if ignoreUnknown then .ok none
    else .error (.unknownField kind text)
  | .array _ | .object _ => .error (fieldMisfit name (.unhashable name.typeName))
  | other => .error (fieldMisfit name (.notText other.typeName))

/-- The file name of a source, where null clears it. -/
def readFileName (name : String) (value : Value) : Except MessageJsonError String :=
  match value with
  | .null => .ok ""
  | _ => (readText value).mapError fun
    | .refused reason => .field name (reason.message ++ " at SourceContext." ++ name)
    | .misfit reason => .field name reason.report.2

def readFields (kind : MessageKind) (ignoreUnknown : Bool) (current : String) :
    List (Value × Except Misfit Value) → Except MessageJsonError String
  | [] => .ok current
  | (name, value) :: rest => do
    match ← fieldName kind ignoreUnknown name with
    | none => readFields kind ignoreUnknown current rest
    | some field =>
      let value ← value.mapError (fieldMisfit name)
      readFields kind ignoreUnknown (← readFileName field value) rest

def MessageKind.ofJsonValue (kind : MessageKind) (ignoreUnknown : Bool) (value : Value) :
    Except MessageJsonError Message :=
  match kind with
  | .wrapper wrapped => ((Wrapper.ofJson wrapped value).map .wrapper).mapError
      (·.atPlace (kind.name ++ ".value"))
  | .timestamp => (readTimestamp value).map .timestamp
  | .duration => (readDuration value).map .duration
  | .empty => do
    let _ ← readFields kind ignoreUnknown "" (← fieldsOf value)
    return .empty
  | .sourceContext => do
    return .sourceContext (← readFields kind ignoreUnknown "" (← fieldsOf value))

def MessageKind.ofJson (kind : MessageKind) (ignoreUnknown : Bool) (source : String) :
    Except MessageJsonError Message := do
  let value ← (Json.parse source).mapError (.json source)
  kind.ofJsonValue ignoreUnknown value

def MessageJsonError.message : MessageJsonError → String
  | json source error => "Failed to load JSON: " ++ error.message source ++ "."
  | refused message place => message ++ " at " ++ place
  | misfit reason =>
    "Failed to parse JSON: " ++ reason.report.1 ++ ": " ++ reason.report.2 ++ "."
  | field name message => "Failed to parse " ++ name ++ " field: " ++ message ++ "."
  | unknownField kind name =>
    let available := kind.fieldNames.map Text.quotation
    "Message type \"" ++ kind.fullName ++ "\" has no field named \"" ++ name ++ "\" at \"" ++
      kind.name ++ "\".\n Available Fields(except extensions): \"[" ++
      String.intercalate ", " available ++ "]\""
  | noExtensions kind =>
    "Message type " ++ kind.fullName ++ " does not have extensions at " ++ kind.name

end ProtoBindings.Native
