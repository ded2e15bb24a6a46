import ProtoBindings.Value.Access
import ProtoBindings.Value.Class

namespace ProtoBindings.Value

open Code (Arguments Expr Function Param Stmt)
open Schema (Field Member Message Oneof)

def oneofHelper (m : Message) (o : Oneof) (ending : String) : String :=
  "_" ++ m.ref.stem ++ "_" ++ Name.snakeCase o.name ++ ending

def oneofReaderName (m : Message) (o : Oneof) : String := oneofHelper m o "_to_idiom"

def oneofWriterName (m : Message) (o : Oneof) : String := oneofHelper m o "_to_host"

def messageName : Expr := .name "message"

def valueName : Expr := .name "value"

structure Argument where
  name : String
  value : Reference
  deriving Repr

def memberArgument (mapper : Mapper) (m : Message) : Member → Except Mapping.Error Argument
  | .field f => do return ⟨Name.escape f.name, ← readField mapper messageName f⟩
  | .oneof o =>
    .ok ⟨Name.escape o.name, ⟨(Expr.name (oneofReaderName m o)).apply [messageName], []⟩⟩

def messageReader (mapper : Mapper) (m : Message) : Except Mapping.Error Function := do
  let host := hostClass m.ref
  let arguments ← eachMember m (memberArgument mapper m)
  return {
    name := m.ref.readerName
    params := [.typed "message" host.expr]
    returns := .name m.ref.className
    body := [.retCall (.name m.ref.className)
      (.ofKeywords (arguments.map fun a => (a.name, a.value.expr)))]
    doc := some ("Convert a host ``" ++ m.fullName ++ "`` message into :class:`" ++
      m.ref.className ++ "`.")
    imports := host.imports ++ arguments.flatMap (·.value.imports) }

def caseReader (mapper : Mapper) (m : Message) (o : Oneof) (f : Field) :
    Except Mapping.Error Statements := do
  let transform ← mapper.reader f.element
  let value := transform.conversion.apply (hostField messageName f.name)
  return ⟨[.compound (.ifTest (.equals (.name "which") (.string f.name)))
    [.retCall (.name (Name.variantName (oneofTypeName m o) f.name))
      (.ofKeywords [(Name.escape f.name, value)])]], transform.imports⟩

def oneofReader (mapper : Mapper) (m : Message) (o : Oneof) : Except Mapping.Error Function := do
  let host := hostClass m.ref
  let cases ← o.fields.mapM (caseReader mapper m o)
  return {
    name := oneofReaderName m o
    params := [.typed "message" host.expr]
    returns := .generic "Optional" [.name (oneofTypeName m o)]
    body := .assign (.name "which") (invoke messageName "WhichOneof" [.string o.name]) ::
      cases.flatMap (·.body) ++ [.ret .none]
    imports := host.imports ++ cases.flatMap (·.imports) ++ [.typing "Optional"] }

/-- A case of a message type without a value still selects the case. -/
def caseBody (mapper : Mapper) (f : Field) : Except Mapping.Error Statements := do
  let source := valueName.attribute (Name.escape f.name)
  if f.element.isMessage then
    let transform ← mapper.writer f.element
    let access := hostField messageName f.name
    return ⟨[.compound (.ifTest (.isNone source)) [markSet access],
      .compound .otherwise [copyInto access (transform.conversion.apply source)]],
      transform.imports⟩
  else writeField mapper messageName source f

def caseWriter (mapper : Mapper) (m : Message) (o : Oneof) (isFirst : Bool) (f : Field) :
    Except Mapping.Error Statements := do
  let test := (Expr.name "isinstance").apply
    [valueName, .name (Name.variantName (oneofTypeName m o) f.name)]
  let body ← caseBody mapper f
  return ⟨[.compound (if isFirst then .ifTest test else .elifTest test) body.body], body.imports⟩

def caseWriters (mapper : Mapper) (m : Message) (o : Oneof) :
    Except Mapping.Error (List Statements) :=
  match o.fields with
  | [] => .ok []
  | first :: rest => do
    let first ← caseWriter mapper m o true first
    let rest ← rest.mapM (caseWriter mapper m o false)
    return first :: rest

def unexpectedCase (m : Message) (o : Oneof) : Stmt :=
  .raise ((Expr.name "TypeError").apply
    [.showing ("Unexpected value for oneof " ++ m.fullName ++ "." ++ o.name ++ ": ") valueName])

def oneofWriter (mapper : Mapper) (m : Message) (o : Oneof) : Except Mapping.Error Function := do
  let host := hostClass m.ref
  let cases ← caseWriters mapper m o
  return {
    name := oneofWriterName m o
    params := [.typed "value" (.generic "Optional" [.name (oneofTypeName m o)]),
      .typed "message" host.expr]
    returns := .none
    body := .compound (.ifTest (.isNone valueName)) [.leave] :: cases.flatMap (·.body) ++
      [.compound .otherwise [unexpectedCase m o]]
    imports := host.imports ++ cases.flatMap (·.imports) ++ [.typing "Optional"] }

def memberStatements (mapper : Mapper) (m : Message) : Member → Except Mapping.Error Statements
  | .field f => writeField mapper messageName (valueName.attribute (Name.escape f.name)) f
  | .oneof o =>
    .ok ⟨[.expr ((Expr.name (oneofWriterName m o)).apply
      [valueName.attribute (Name.escape o.name), messageName])], []⟩

def messageWriter (mapper : Mapper) (m : Message) : Except Mapping.Error Function := do
  let host := hostClass m.ref
  let members ← eachMember m (memberStatements mapper m)
  return {
    name := m.ref.writerName
    params := [.typed "value" (.name m.ref.className)]
    returns := host.expr
    body := .assign messageName (host.expr.apply []) :: members.flatMap (·.body) ++
      [.ret messageName]
    doc := some ("Convert :class:`" ++ m.ref.className ++ "` into a host ``" ++ m.fullName ++
      "`` message.")
    imports := host.imports ++ members.flatMap (·.imports) }

def bytesWriter (m : Message) : Function where
  name := m.ref.stem ++ "_to_bytes"
  params := [.typed "value" (.name m.ref.className)]
  returns := .name "bytes"
  body := [.ret (invoke ((Expr.name m.ref.writerName).apply [valueName]) "SerializeToString" [])]

def bytesReader (m : Message) : Function where
  name := m.ref.stem ++ "_from_bytes"
  params := [.typed "data" (.name "bytes")]
  returns := .name m.ref.className
  body := [.ret ((Expr.name m.ref.readerName).apply
    [invoke (hostClass m.ref).expr "FromString" [.name "data"]])]
  imports := (hostClass m.ref).imports

def messageFunctions (mapper : Mapper) (m : Message) : Except Mapping.Error (List Function) := do
  let reader ← messageReader mapper m
  let oneofReaders ← m.oneofs.mapM (oneofReader mapper m)
  let writer ← messageWriter mapper m
  let oneofWriters ← m.oneofs.mapM (oneofWriter mapper m)
  return reader :: oneofReaders ++ writer :: oneofWriters ++ [bytesWriter m, bytesReader m]

structure ParserConstant where
  name : String
  valueClass : String
  host : Expr
  reader : String
  imports : List Import
  deriving DecidableEq, Repr

def parserConstant (m : Message) : ParserConstant where
  name := m.ref.constantStem ++ "_PARSER"
  valueClass := m.ref.className
  host := (hostClass m.ref).expr
  reader := m.ref.readerName
  imports := (hostClass m.ref).imports ++ [.parserSupport]

end ProtoBindings.Value
