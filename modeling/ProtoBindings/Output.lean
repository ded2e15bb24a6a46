import ProtoBindings.Service.Module

namespace ProtoBindings

open Schema (FileUnit)

structure Output where
  path : String
  content : String
  deriving DecidableEq, Repr

structure OutputOptions where
  packagePrefix : Option String := none
  services : Bool := true
  deriving DecidableEq, Repr

namespace Output

def valueContent (options : OutputOptions) (enums : Mapping.EnumIndex) (unit : FileUnit) :
    Except Mapping.Error String := do
  let scope : Scope := { file := unit.name, package := unit.package,
                         packagePrefix := options.packagePrefix }
  return (← Value.Module.ofUnit ⟨scope, enums⟩ unit).render

def serviceContent (options : OutputOptions) (enums : Mapping.EnumIndex) (unit : FileUnit) :
    Except Mapping.Error String := do
  let scope : Scope := { file := unit.name, package := unit.package,
                         packagePrefix := options.packagePrefix, declaresTypes := false }
  return (← Service.Module.ofUnit ⟨scope, enums⟩ unit).render

def valuePath (options : OutputOptions) (unit : FileUnit) : String :=
  Name.outputPath (Name.valueModule unit.package unit.name options.packagePrefix)

def servicePath (options : OutputOptions) (unit : FileUnit) : String :=
  Name.outputPath (Name.serviceModule unit.package unit.name options.packagePrefix)

def ofUnit (options : OutputOptions) (enums : Mapping.EnumIndex) (unit : FileUnit) :
    Except Mapping.Error (List Output) := do
  let values ← valueContent options enums unit
  if options.services && !unit.services.isEmpty then
    let services ← serviceContent options enums unit
    return [⟨valuePath options unit, values⟩, ⟨servicePath options unit, services⟩]
  return [⟨valuePath options unit, values⟩]

end Output

end ProtoBindings
