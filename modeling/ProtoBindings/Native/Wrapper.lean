import ProtoBindings.Number.Real
import ProtoBindings.Number.Integer
import ProtoBindings.Text.Utf8
import ProtoBindings.Wire.Entry

namespace ProtoBindings.Native

open Number (OutOfRange double fitSigned fitUnsigned single)
open Wire (Bytes)

inductive WrapperKind
  | double
  | float
  | int64
  | uint64
  | int32
  | uint32
  | bool
  | string
  | bytes
  deriving DecidableEq, Repr

namespace WrapperKind

def name : WrapperKind → String
  | double => "double"
  | float => "float"
  | int64 => "int64"
  | uint64 => "uint64"
  | int32 => "int32"
  | uint32 => "uint32"
  | bool => "bool"
  | string => "string"
  | bytes => "bytes"

def messageName : WrapperKind → String
  | double => "DoubleValue"
  | float => "FloatValue"
  | int64 => "Int64Value"
  | uint64 => "UInt64Value"
  | int32 => "Int32Value"
  | uint32 => "UInt32Value"
  | bool => "BoolValue"
  | string => "StringValue"
  | bytes => "BytesValue"

def all : List WrapperKind :=
  [double, float, int64, uint64, int32, uint32, bool, string, bytes]

end WrapperKind

/-- The content of a wrapper. Floating-point values are bit patterns of double precision, also those
    that a wrapper holds in single precision. -/
inductive Scalar
  | number (value : Int)
  | real (bits : Nat)
  | truth (value : Bool)
  | text (value : String)
  | data (value : Bytes)
  deriving DecidableEq, Repr

def toSingle (bits : Nat) : Nat := double.convert single bits

def ofSingle (bits : Nat) : Nat := single.convert double bits

structure Wrapper where
  kind : WrapperKind
  value : Scalar
  deriving DecidableEq, Repr

namespace Wrapper

def ofInt (kind : WrapperKind) (n : Int) : Except OutOfRange Wrapper := do
  let fitted ← match kind with
    | .int64 => fitSigned 64 n
    | .uint64 => fitUnsigned 64 n
    | .uint32 => fitUnsigned 32 n
    | _ => fitSigned 32 n
  return ⟨kind, .number fitted⟩

def ofReal (kind : WrapperKind) (bits : Nat) : Wrapper :=
  ⟨kind, .real (if kind = .float then ofSingle (toSingle bits) else bits)⟩

/-- Fields that hold their default are left out; a negative number is written in 64 bits. -/
def toWire (w : Wrapper) : Bytes :=
  match w.value with
  | .number n => if n = 0 then [] else Wire.varintField 1 (n % 18446744073709551616).toNat
  | .real bits =>
    if bits = 0 then []
    else if w.kind = .float then Wire.tag 1 5 ++ Wire.fixed 4 (toSingle bits)
    else Wire.tag 1 1 ++ Wire.fixed 8 bits
  | .truth b => if b then Wire.varintField 1 1 else []
  | .text s => if s = "" then [] else Wire.contentField 1 (Text.Utf8.encode s)
  | .data content => if content = [] then [] else Wire.contentField 1 content

end Wrapper

end ProtoBindings.Native
