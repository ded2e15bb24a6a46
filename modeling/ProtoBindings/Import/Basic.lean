import ProtoBindings.Name.Module

namespace ProtoBindings

structure Import where
  module : String
  name : Option String := none
  localName : Option String := none
  deriving DecidableEq, Repr

namespace Import

def standardModules : List String := ["dataclasses", "datetime", "enum", "typing", "warnings"]

def isStandard (i : Import) : Bool :=
  standardModules.contains (String.ofList (i.module.toList.takeWhile (· ≠ '.')))

def aliased (text : String) (localName : Option String) : String :=
  match localName.filter (· ≠ "") with
  | some bound => text ++ " as " ++ bound
  | none => text

def render (i : Import) : String :=
  match i.name with
  | none => aliased ("import " ++ i.module) i.localName
  | some name => aliased ("from " ++ i.module ++ " import " ++ name) i.localName

def ofModule (module : String) : Import := { module, localName := some (Name.moduleAlias module) }

def typing (name : String) : Import := { module := "typing", name := some name }

def support (name bound : String) : Import :=
  { module := "protoc_idiom.runtime", name := some name, localName := some bound }

def wellKnownSupport : Import := support "well_known" "_wkt"

def parserSupport : Import := support "parsers" "_parsers"

def metadataSupport : Import := support "metadata" "_metadata"

def rpcSupport : Import := support "rpc" "_rpc"

end Import

end ProtoBindings
