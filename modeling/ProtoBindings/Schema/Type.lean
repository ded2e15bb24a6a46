namespace ProtoBindings.Schema

inductive ScalarType
  | double
  | float
  | int64
  | uint64
  | int32
  | fixed64
  | fixed32
  | bool
  | string
  | bytes
  | uint32
  | sfixed32
  | sfixed64
  | sint32
  | sint64
  deriving DecidableEq, Repr

namespace ScalarType

def all : List ScalarType :=
  [double, float, int64, uint64, int32, fixed64, fixed32, bool, string, bytes, uint32, sfixed32,
    sfixed64, sint32, sint64]

def name : ScalarType → String
  | double => "double"
  | float => "float"
  | int64 => "int64"
  | uint64 => "uint64"
  | int32 => "int32"
  | fixed64 => "fixed64"
  | fixed32 => "fixed32"
  | bool => "bool"
  | string => "string"
  | bytes => "bytes"
  | uint32 => "uint32"
  | sfixed32 => "sfixed32"
  | sfixed64 => "sfixed64"
  | sint32 => "sint32"
  | sint64 => "sint64"

def ofName? (text : String) : Option ScalarType := all.find? (·.name == text)

end ScalarType

structure TypeRef where
  fullName : String
  file : String
  package : String
  path : List String
  deriving DecidableEq, Repr

def TypeRef.name (ref : TypeRef) : String := ref.path.getLast?.getD ""

def qualify (package name : String) : String :=
  if package = "" then name else package ++ "." ++ name

end ProtoBindings.Schema
