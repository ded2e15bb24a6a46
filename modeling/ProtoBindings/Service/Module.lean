import ProtoBindings.Service.Class
import ProtoBindings.Value.Module

namespace ProtoBindings.Service

open Schema (FileUnit)

structure Bound where
  service : Schema.Service
  bindings : List Binding
  deriving Repr

namespace Bound

def of (mapper : Mapper) (service : Schema.Service) : Except Mapping.Error Bound := do
  return ⟨service, ← service.methods.mapM (Binding.of mapper service)⟩

def classes (b : Bound) : List ServiceClass :=
  [servicerClass b.service b.bindings, clientClass b.service b.bindings,
    partialClass b.service b.bindings]

def defaults (b : Bound) : List Code.Function := b.bindings.map (·.unimplementedFunction)

def imports (b : Bound) : List Import :=
  b.bindings.flatMap (·.constantImports) ++ b.defaults.flatMap (·.imports) ++
    b.classes.flatMap (·.methods.flatMap (·.imports))

end Bound

structure Module where
  source : String
  services : List Bound
  deriving Repr

namespace Module

def ofUnit (mapper : Mapper) (unit : FileUnit) : Except Mapping.Error Module := do
  return ⟨unit.name, ← unit.services.mapM (Bound.of mapper)⟩

def adapterImports : List Import :=
  [{ module := "grpc" }, .typing "Callable", .metadataSupport, .rpcSupport]

def imports (m : Module) : List Import := adapterImports ++ m.services.flatMap (·.imports)

end Module

def ServiceClass.lines (c : ServiceClass) : List String :=
  ["", "", "class " ++ c.name ++ ":"] ++ c.docLines ++
    c.methods.flatMap fun method => "" :: method.lines Code.indent

namespace Bound

def constantLines (b : Bound) : List String :=
  ["", serviceConstant b.service ++ " = \"" ++ b.service.fullName ++ "\""] ++
    b.bindings.flatMap (·.constantLines)

def classLines (b : Bound) : List String :=
  b.defaults.flatMap (fun function => ["", ""] ++ function.lines "") ++
    b.classes.flatMap (·.lines)

end Bound

namespace Module

def lines (m : Module) : List String :=
  Value.Module.header m.source "grpc.aio bindings for the services declared in" ++
    [""] ++ Import.block m.imports ++ m.services.flatMap (·.constantLines) ++
    ["", ""] ++ adapterLines ++ m.services.flatMap (·.classLines)

def render (m : Module) : String := Code.joinLines m.lines ++ "\n"

end Module

end ProtoBindings.Service
