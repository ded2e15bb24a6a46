import ProtoBindings.Import.Basic
import ProtoBindings.Mapping.Conversion

namespace ProtoBindings

open Code (Expr)

inductive WellKnown
  | empty
  | timestamp
  | duration
  | doubleValue
  | floatValue
  | int64Value
  | uint64Value
  | int32Value
  | uint32Value
  | boolValue
  | stringValue
  | bytesValue
  deriving DecidableEq, Repr

namespace WellKnown

def all : List WellKnown :=
  [empty, timestamp, duration, doubleValue, floatValue, int64Value, uint64Value, int32Value,
    uint32Value, boolValue, stringValue, bytesValue]

def fullName : WellKnown → String
  | empty => "google.protobuf.Empty"
  | timestamp => "google.protobuf.Timestamp"
  | duration => "google.protobuf.Duration"
  | doubleValue => "google.protobuf.DoubleValue"
  | floatValue => "google.protobuf.FloatValue"
  | int64Value => "google.protobuf.Int64Value"
  | uint64Value => "google.protobuf.UInt64Value"
  | int32Value => "google.protobuf.Int32Value"
  | uint32Value => "google.protobuf.UInt32Value"
  | boolValue => "google.protobuf.BoolValue"
  | stringValue => "google.protobuf.StringValue"
  | bytesValue => "google.protobuf.BytesValue"

def constantName : WellKnown → String
  | empty => "EMPTY"
  | timestamp => "TIMESTAMP"
  | duration => "DURATION"
  | doubleValue => "DOUBLE_VALUE"
  | floatValue => "FLOAT_VALUE"
  | int64Value => "INT64_VALUE"
  | uint64Value => "UINT64_VALUE"
  | int32Value => "INT32_VALUE"
  | uint32Value => "UINT32_VALUE"
  | boolValue => "BOOL_VALUE"
  | stringValue => "STRING_VALUE"
  | bytesValue => "BYTES_VALUE"

def ofFullName? (fullName : String) : Option WellKnown := all.find? (·.fullName == fullName)

def supportName (id : String) : Expr := .attribute (.name "_wkt") id

def nativeType : WellKnown → Expr
  | empty => supportName "Empty"
  | timestamp => .attribute (.name "datetime") "datetime"
  | duration => .attribute (.name "datetime") "timedelta"
  | doubleValue | floatValue => .name "float"
  | int64Value | uint64Value | int32Value | uint32Value => .name "int"
  | boolValue => .name "bool"
  | stringValue => .name "str"
  | bytesValue => .name "bytes"

def default : WellKnown → Expr
  | timestamp => supportName "EPOCH"
  | duration => supportName "ZERO_DURATION"
  | _ => .none

def reader : WellKnown → Conversion
  | empty => .constant (supportName "EMPTY")
  | timestamp => .call (supportName "timestamp_to_datetime")
  | duration => .call (supportName "duration_to_timedelta")
  | _ => .content

def emptyModule : String := "google.protobuf.empty_pb2"

def writer : WellKnown → Conversion
  | empty =>
    .constant ((Expr.attribute (.name (Name.moduleAlias emptyModule)) "Empty").apply [])
  | timestamp => .call (supportName "datetime_to_timestamp")
  | duration => .call (supportName "timedelta_to_duration")
  | doubleValue => .call (supportName "to_double_value")
  | floatValue => .call (supportName "to_float_value")
  | int64Value => .call (supportName "to_int64_value")
  | uint64Value => .call (supportName "to_uint64_value")
  | int32Value => .call (supportName "to_int32_value")
  | uint32Value => .call (supportName "to_uint32_value")
  | boolValue => .call (supportName "to_bool_value")
  | stringValue => .call (supportName "to_string_value")
  | bytesValue => .call (supportName "to_bytes_value")

def imports : WellKnown → List Import
  | empty => [.ofModule emptyModule, .wellKnownSupport]
  | timestamp | duration => [{ module := "datetime" }, .wellKnownSupport]
  | _ => [.wellKnownSupport]

end WellKnown

/-- Types of the `google` packages are referred to, but no code is generated for them. -/
def isGoogleType (fullName : String) : Bool := Text.startsWith fullName "google."

end ProtoBindings
