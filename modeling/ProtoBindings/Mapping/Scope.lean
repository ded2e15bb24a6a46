import ProtoBindings.Import.Basic
import ProtoBindings.Code.Expr
import ProtoBindings.Name.Declaration

namespace ProtoBindings

open Code (Expr)
open Schema (TypeRef)

/-- The schema file whose module is generated. A module that declares no types, such as one of
    service bindings, refers to those of its own file as to any other. -/
structure Scope where
  file : String
  package : String
  packagePrefix : Option String := none
  declaresTypes : Bool := true
  deriving DecidableEq, Repr

structure Reference where
  expr : Expr
  imports : List Import := []
  deriving DecidableEq, Repr

namespace Scope

def valueModule (scope : Scope) : String :=
  Name.valueModule scope.package scope.file scope.packagePrefix

def isLocal (scope : Scope) (ref : TypeRef) : Bool :=
  scope.declaresTypes && ref.file == scope.file

def moduleOf (scope : Scope) (ref : TypeRef) : String :=
  Name.valueModule ref.package ref.file scope.packagePrefix

def generatedName (scope : Scope) (ref : TypeRef) (id : String) : Reference :=
  if scope.isLocal ref then ⟨.name id, []⟩
  else
    let module := scope.moduleOf ref
    ⟨.attribute (.name (Name.moduleAlias module)) id, [.ofModule module]⟩

def generatedClass (scope : Scope) (ref : TypeRef) : Reference :=
  scope.generatedName ref ref.className

end Scope

def hostClass (ref : TypeRef) : Reference :=
  let module := Name.hostModule ref.file
  let path := if ref.path = [] then [""] else ref.path
  ⟨.path (.name (Name.moduleAlias module)) path, [.ofModule module]⟩

end ProtoBindings
