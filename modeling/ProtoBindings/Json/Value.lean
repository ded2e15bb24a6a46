import ProtoBindings.Number.Shortest
import ProtoBindings.Text.CodePoints

namespace ProtoBindings.Json

open Text (CodePoints)

inductive Value
  | null
  | truth (value : Bool)
  | integer (value : Int)
  | real (bits : Nat)
  | text (codes : CodePoints)
  | array (items : List Value)
  | object (members : List (CodePoints × Value))

namespace Value

def typeName : Value → String
  | null => "NoneType"
  | truth _ => "bool"
  | integer _ => "int"
  | real _ => "float"
  | text _ => "str"
  | array _ => "list"
  | object _ => "dict"

mutual

def shown : Value → String
  | .null => "None"
  | .truth b => if b then "True" else "False"
  | .integer n => toString n
  | .real bits => Number.realText bits
  | .text codes => codes.quotation
  | .array items => "[" ++ String.intercalate ", " (shownItems items) ++ "]"
  | .object members => "\x7b" ++ String.intercalate ", " (shownMembers members) ++ "\x7d"

def shownItems : List Value → List String
  | [] => []
  | item :: rest => item.shown :: shownItems rest

def shownMembers : List (CodePoints × Value) → List String
  | [] => []
  | (name, value) :: rest => (name.quotation ++ ": " ++ value.shown) :: shownMembers rest

end

def plain : Value → String
  | text codes => codes.toText
  | value => value.shown

end Value

end ProtoBindings.Json
