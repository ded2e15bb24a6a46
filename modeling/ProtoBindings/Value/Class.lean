import ProtoBindings.Code.Function
import ProtoBindings.Mapping.Basic
import ProtoBindings.Schema.Members

namespace ProtoBindings.Value

open Code (Expr Function Param Stmt)
open Schema (Field Member Message Oneof)

structure Attribute where
  name : String
  type : Expr
  default : Expr
  deprecated : Bool := false
  imports : List Import := []
  deriving DecidableEq, Repr

structure DataClass where
  name : String
  doc : String
  attributes : List Attribute
  methods : List Function := []
  deriving Repr

inductive Declaration
  | dataClass (definition : DataClass)
  | union (name : String) (variants : List String)
  deriving Repr

namespace Declaration

def name : Declaration → String
  | dataClass definition => definition.name
  | union name _ => name

def imports : Declaration → List Import
  | dataClass definition =>
    definition.attributes.flatMap (·.imports) ++ definition.methods.flatMap (·.imports)
  | union _ _ => [.typing "Union"]

end Declaration

def presenceMethod (f : Field) : Function where
  name := "has_" ++ f.name
  params := [.self]
  returns := .name "bool"
  body := [.ret (.isNotNone (.attribute (.name "self") (Name.escape f.name)))]
  doc := some (
    if f.info.isExplicitOptional then "Whether the optional ``" ++ f.name ++ "`` field was set."
    else "Whether the ``" ++ f.name ++ "`` message field was set.")

def presenceMethods (m : Message) : List Function :=
  (m.fields.filter fun f => f.hasPresence && !f.inOneof).map presenceMethod

def nestedClassNames (m : Message) : List String :=
  m.messages.map (·.ref.className) ++ m.enums.map (·.ref.className)

def oneofTypeName (m : Message) (o : Oneof) : String :=
  m.ref.oneofTypeName o.name (nestedClassNames m)

def fieldAttribute (mapper : Mapper) (f : Field) : Except Mapping.Error Attribute := do
  let mapped ← mapper.mapField f
  return {
    name := Name.escape f.name
    type := mapped.type
    default := mapped.default.toExpr
    deprecated := f.info.deprecated
    imports := mapped.imports }

def oneofAttribute (m : Message) (o : Oneof) : Attribute where
  name := Name.escape o.name
  type := .generic "Optional" [.name (oneofTypeName m o)]
  default := .none
  imports := [.typing "Optional"]

def eachMember {α : Type} (m : Message) (treat : Member → Except Mapping.Error α) :
    Except Mapping.Error (List α) :=
  m.entries.mapM fun entry => do treat (← entry.mapError .unknownMember)

def memberAttribute (mapper : Mapper) (m : Message) : Member → Except Mapping.Error Attribute
  | .field f => fieldAttribute mapper f
  | .oneof o => .ok (oneofAttribute m o)

def variantClass (mapper : Mapper) (m : Message) (o : Oneof) (f : Field) :
    Except Mapping.Error DataClass := do
  let content ← fieldAttribute mapper f
  return {
    name := Name.variantName (oneofTypeName m o) f.name
    doc := "``" ++ f.name ++ "`` case of the ``" ++ m.fullName ++ "." ++ o.name ++ "`` oneof."
    attributes := [content] }

def oneofDeclarations (mapper : Mapper) (m : Message) (o : Oneof) :
    Except Mapping.Error (List Declaration) := do
  let variants ← o.fields.mapM (variantClass mapper m o)
  return variants.map .dataClass ++ [.union (oneofTypeName m o) (variants.map (·.name))]

def messageDeclarations (mapper : Mapper) (m : Message) :
    Except Mapping.Error (List Declaration) := do
  let oneofs ← m.oneofs.mapM (oneofDeclarations mapper m)
  let attributes ← eachMember m (memberAttribute mapper m)
  let definition : DataClass := {
    name := m.ref.className
    doc := "Value type for ``" ++ m.fullName ++ "``."
    attributes
    methods := presenceMethods m }
  return oneofs.flatten ++ [.dataClass definition]

end ProtoBindings.Value
