import ProtoBindings.Code.Stmt
import ProtoBindings.Mapping.Basic

namespace ProtoBindings.Value

open Code (Expr Stmt)
open Schema (Field FieldInfo)

/-- A field that is named by a keyword can only be reached by its name as a text. -/
def hostField (owner : Expr) (name : String) : Expr :=
  if Name.isKeyword name then (Expr.name "getattr").apply [owner, .string name]
  else owner.attribute name

def assignHostField (owner : Expr) (name : String) (value : Expr) : Stmt :=
  if Name.isKeyword name then .expr ((Expr.name "setattr").apply [owner, .string name, value])
  else .assign (owner.attribute name) value

def invoke (target : Expr) (method : String) (arguments : List Expr) : Expr :=
  (target.attribute method).apply arguments

def isSet (owner : Expr) (name : String) : Expr := invoke owner "HasField" [.string name]

def readWith (owner : Expr) (f : Field) (conversion : Conversion) : Expr :=
  let access := hostField owner f.name
  let eachItem := conversion.apply (.name "item")
  match f with
  | .map _ _ _ =>
    if conversion.isIdentity then (Expr.name "dict").apply [access] else .dictEach eachItem access
  | .ordinary info =>
    if info.isRepeated then
      if conversion.isIdentity then (Expr.name "list").apply [access]
      else .list (.ofList [.each eachItem access])
    else if f.hasPresence then .conditional (conversion.apply access) (isSet owner f.name) .none
    else conversion.apply access

def convertedElement : Field → Schema.ElementType
  | .map _ _ value => value.element
  | .ordinary info => info.element

def readField (mapper : Mapper) (owner : Expr) (f : Field) : Except Mapping.Error Reference := do
  let transform ← mapper.reader (convertedElement f)
  return ⟨readWith owner f transform.conversion, transform.imports⟩

def copyInto (target value : Expr) : Stmt := .expr (invoke target "CopyFrom" [value])

def markSet (target : Expr) : Stmt := .expr (invoke target "SetInParent" [])

def writeSingle (owner source : Expr) (info : FieldInfo) (conversion : Conversion) : Stmt :=
  let access := hostField owner info.name
  if info.element.isMessage then
    if conversion.hasHole then copyInto access (conversion.apply source) else markSet access
  else assignHostField owner info.name (conversion.apply source)

def writeWith (owner source : Expr) (f : Field) (conversion : Conversion) : List Stmt :=
  let access := hostField owner f.name
  let eachItem := conversion.apply (.name "item")
  match f with
  | .map _ _ value =>
    if value.element.isMessage then
      [.compound (.eachEntry source) [copyInto (.item access (.ofList [.name "key"])) eachItem]]
    else if conversion.isIdentity then [.expr (invoke access "update" [source])]
    else [.expr (invoke access "update" [.dictEach eachItem source])]
  | .ordinary info =>
    if info.isRepeated then
      if conversion.isIdentity then [.expr (invoke access "extend" [source])]
      else [.expr (invoke access "extend" [.each eachItem source])]
    else if f.hasPresence then
      [.compound (.ifTest (.isNotNone source)) [writeSingle owner source info conversion]]
    else [writeSingle owner source info conversion]

structure Statements where
  body : List Stmt
  imports : List Import := []
  deriving Repr

def writeField (mapper : Mapper) (owner source : Expr) (f : Field) :
    Except Mapping.Error Statements := do
  let transform ← mapper.writer (convertedElement f)
  return ⟨writeWith owner source f transform.conversion, transform.imports⟩

end ProtoBindings.Value
