import ProtoBindings.Mapping.Scope
import ProtoBindings.Mapping.WellKnown
import ProtoBindings.Schema.Basic

namespace ProtoBindings.Mapping

open Code (Expr Literal)
open Schema (ElementType EnumType Field FileUnit ScalarType TypeRef)

inductive Error
  | unknownScalar (name : Option String)
  | unknownEnum (fullName : String)
  | unknownMember (name : String)
  | undeclared
  | missing
  | template (error : Template.Error)
  deriving DecidableEq, Repr

def Error.message : Error → String
  | unknownScalar (some name) => Text.quotation name
  | unknownScalar none => "None"
  | unknownEnum fullName =>
    Text.quotation ("Enum " ++ fullName ++ " is not known to the type mapper")
  | unknownMember name => Text.quotation name
  | undeclared => "'NoneType' object has no attribute 'full_name'"
  | missing => "'NoneType' object has no attribute 'kind'"
  | template error => error.message

def nativeScalar : ScalarType → String × Literal
  | .int32 | .sint32 | .sfixed32 | .uint32 | .fixed32 => ("int", .zero)
  | .int64 | .sint64 | .sfixed64 | .uint64 | .fixed64 => ("int", .zero)
  | .float | .double => ("float", .zeroFloat)
  | .bool => ("bool", .false)
  | .string => ("str", .emptyString)
  | .bytes => ("bytes", .emptyBytes)

/-- The default of a field: a value that all instances share, or a function that makes one for each. -/
inductive Default
  | value (e : Expr)
  | factory (e : Expr)
  deriving DecidableEq, Repr

def Default.toExpr : Default → Expr
  | value e => e
  | factory e =>
    .call (.attribute (.name "dataclasses") "field") (.keyword "default_factory" e .nil)

structure MappedType where
  type : Expr
  default : Default
  imports : List Import := []
  nullable : Bool := false
  deriving DecidableEq, Repr

structure Transform where
  conversion : Conversion
  imports : List Import := []
  deriving DecidableEq, Repr

/-- Enums by full name; of two with one name the last counts. -/
abbrev EnumIndex := List EnumType

def EnumIndex.find? (index : EnumIndex) (fullName : String) : Option EnumType :=
  List.find? (·.fullName == fullName) index.reverse

def EnumIndex.ofUnits (units : List FileUnit) : EnumIndex := units.flatMap (·.allEnums)

end Mapping

structure Mapper where
  scope : Scope
  enums : Mapping.EnumIndex := []
  deriving Repr

namespace Mapper

open Mapping
open Code (Expr)
open Schema (ElementType Field TypeRef)

def firstValue (mapper : Mapper) (ref : TypeRef) : Except Error String :=
  match (mapper.enums.find? ref.fullName).bind (·.values.head?) with
  | some value => .ok value.name
  | none => .error (.unknownEnum ref.fullName)

def instances (type : Reference) : MappedType := ⟨type.expr, .factory type.expr, type.imports, false⟩

def mapEnum (mapper : Mapper) (ref : TypeRef) : Except Error MappedType := do
  if isGoogleType ref.fullName then return ⟨.name "int", .value (.literal .zero), [], false⟩
  let type := mapper.scope.generatedClass ref
  let first ← mapper.firstValue ref
  return ⟨type.expr, .value (type.expr.attribute (Name.escape first)), type.imports, false⟩

def mapMessage (mapper : Mapper) (ref : TypeRef) : MappedType :=
  match WellKnown.ofFullName? ref.fullName with
  | some known => ⟨known.nativeType, .value known.default, known.imports, false⟩
  | none =>
    if isGoogleType ref.fullName then instances (hostClass ref)
    else instances (mapper.scope.generatedClass ref)

def mapElement (mapper : Mapper) : ElementType → Except Error MappedType
  | .scalar type =>
    let (native, default) := nativeScalar type
    .ok ⟨.name native, .value (.literal default), [], false⟩
  | .unknownScalar name => .error (.unknownScalar name)
  | .enum ref => mapper.mapEnum ref
  | .message ref => .ok (mapper.mapMessage ref)
  | .undeclared _ => .error .undeclared
  | .missing => .error .missing

def mapField (mapper : Mapper) : Field → Except Error MappedType
  | .map _ key value => do
    let key ← mapper.mapElement key.element
    let value ← mapper.mapElement value.element
    return {
      type := .generic "Dict" [key.type, value.type]
      default := .factory (.name "dict")
      imports := key.imports ++ value.imports ++ [.typing "Dict"] }
  | .ordinary info => do
    let base ← mapper.mapElement info.element
    if info.isRepeated then
      return {
        type := .generic "List" [base.type]
        default := .factory (.name "list")
        imports := base.imports ++ [.typing "List"] }
    if (Field.ordinary info).hasPresence then
      return {
        type := .generic "Optional" [base.type]
        default := .value .none
        imports := base.imports ++ [.typing "Optional"]
        nullable := true }
    return base

def generatedTransform (mapper : Mapper) (ref : TypeRef) (function : String) :
    Except Error Transform := do
  let callee := mapper.scope.generatedName ref function
  let conversion ← (Conversion.call callee.expr).checked.mapError .template
  return ⟨conversion, callee.imports⟩

def reader (mapper : Mapper) : ElementType → Except Error Transform
  | .scalar _ | .unknownScalar _ => .ok ⟨.identity, []⟩
  | .enum ref =>
    if isGoogleType ref.fullName then .ok ⟨.identity, []⟩
    else mapper.generatedTransform ref ref.readerName
  | .message ref =>
    match WellKnown.ofFullName? ref.fullName with
    | some known => .ok ⟨known.reader, known.imports⟩
    | none =>
      if isGoogleType ref.fullName then
        .ok ⟨.call (WellKnown.supportName "copy_message"),
          (hostClass ref).imports ++ [.wellKnownSupport]⟩
      else mapper.generatedTransform ref ref.readerName
  | .undeclared _ => .error .undeclared
  | .missing => .error .missing

def writer (mapper : Mapper) : ElementType → Except Error Transform
  | .scalar _ | .unknownScalar _ => .ok ⟨.identity, []⟩
  | .enum ref =>
    if isGoogleType ref.fullName then .ok ⟨.identity, []⟩
    else mapper.generatedTransform ref ref.writerName
  | .message ref =>
    match WellKnown.ofFullName? ref.fullName with
    | some known => .ok ⟨known.writer, known.imports⟩
    | none =>
      if isGoogleType ref.fullName then .ok ⟨.identity, (hostClass ref).imports⟩
      else mapper.generatedTransform ref ref.writerName
  | .undeclared _ => .error .undeclared
  | .missing => .error .missing

end Mapper

end ProtoBindings
