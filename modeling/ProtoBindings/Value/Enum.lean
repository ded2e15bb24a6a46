import ProtoBindings.Code.Function
import ProtoBindings.Mapping.Scope
import ProtoBindings.Schema.Basic

namespace ProtoBindings.Value

open Code (Expr Function Param Stmt)
open Schema (EnumType)

structure EnumMember where
  name : String
  number : Int
  deriving DecidableEq, Repr

structure EnumClass where
  name : String
  fullName : String
  members : List EnumMember
  deriving DecidableEq, Repr

def enumClass (e : EnumType) : EnumClass where
  name := e.ref.className
  fullName := e.fullName
  members :=
    e.values.map (fun value => ⟨Name.escape value.name, value.number⟩) ++
      (if e.declaresUnrecognized then [] else [⟨Schema.unrecognized, e.unrecognizedNumber⟩])

structure TableEntry where
  member : String
  host : Expr
  deriving DecidableEq, Repr

structure EnumTables where
  className : String
  constant : String
  fromHost : List TableEntry
  toHost : List TableEntry
  imports : List Import
  deriving DecidableEq, Repr

namespace EnumTables

def fromHostName (constant : String) : String := "_" ++ constant ++ "_FROM_HOST"

def toHostName (constant : String) : String := "_" ++ constant ++ "_TO_HOST"

end EnumTables

/-- Declared members are looked up by name in the host enum. The unrecognized one has a number only on
    the way to the host: on the way back it stands for all numbers without an entry. -/
def enumTables (e : EnumType) : EnumTables :=
  let host := hostClass e.ref
  let entries := (e.values.filter (·.name != Schema.unrecognized)).map fun value =>
    ⟨Name.escape value.name, (host.expr.attribute "Value").apply [.string value.name]⟩
  { className := e.ref.className
    constant := e.ref.constantStem
    fromHost := entries
    toHost := entries ++ [⟨Schema.unrecognized, .number e.unrecognizedNumber⟩]
    imports := host.imports }

def enumReader (e : EnumType) : Function where
  name := e.ref.readerName
  params := [.typed "number" (.name "int")]
  returns := .name e.ref.className
  body := [
    .ret ((Expr.attribute (.name (EnumTables.fromHostName e.ref.constantStem)) "get").apply
      [.name "number", .attribute (.name e.ref.className) Schema.unrecognized])]
  doc := some ("Map a host ``" ++ e.fullName ++ "`` number onto :class:`" ++ e.ref.className ++
    "`; unknown numbers become ``UNRECOGNIZED``.")

def enumWriter (e : EnumType) : Function where
  name := e.ref.writerName
  params := [.typed "value" (.name e.ref.className)]
  returns := .name "int"
  body := [.ret (.item (.name (EnumTables.toHostName e.ref.constantStem)) (.ofList [.name "value"]))]

def enumFunctions (e : EnumType) : List Function := [enumReader e, enumWriter e]

end ProtoBindings.Value
