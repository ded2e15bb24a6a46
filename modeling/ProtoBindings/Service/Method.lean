import ProtoBindings.Code.Function
import ProtoBindings.Mapping.Basic

namespace ProtoBindings.Service

open Code (Expr)
open Schema (Method TypeRef)

def classMembers : List String := ["bind", "add_to_server"]

def methodName (m : Method) : String :=
  let name := Name.snakeCase m.name
  if classMembers.contains name then name ++ "_" else Name.escape name

def stubAttribute (m : Method) : String := "_" ++ Name.snakeCase m.name

def serviceConstant (s : Schema.Service) : String := Name.upperSnakeCase s.name ++ "_NAME"

def methodConstant (s : Schema.Service) (m : Method) : String :=
  "_" ++ Name.upperSnakeCase s.name ++ "_" ++ Name.upperSnakeCase m.name

def unimplementedName (s : Schema.Service) (m : Method) : String :=
  "_" ++ Name.snakeCase s.name ++ "_" ++ Name.snakeCase m.name ++ "_unimplemented"

structure Side where
  host : Expr
  type : Expr
  reader : Expr
  writer : Expr
  isEmpty : Bool
  hostImports : List Import
  typeImports : List Import
  converterImports : List Import
  deriving DecidableEq, Repr

def Side.empty (host : Reference) : Side where
  host := host.expr
  type := .none
  reader := .lambda .none
  writer := .lambda (host.expr.apply [])
  isEmpty := true
  hostImports := host.imports
  typeImports := []
  converterImports := host.imports

def Side.of (mapper : Mapper) (ref : TypeRef) : Except Mapping.Error Side := do
  let host := hostClass ref
  if ref.fullName = WellKnown.empty.fullName then return Side.empty host
  let reader ← mapper.reader (.message ref)
  let writer ← mapper.writer (.message ref)
  let mapped ← mapper.mapElement (.message ref)
  return {
    host := host.expr
    type := mapped.type
    reader := reader.conversion.callable
    writer := writer.conversion.callable
    isEmpty := false
    hostImports := host.imports
    typeImports := mapped.imports
    converterImports := reader.imports ++ writer.imports }

structure Binding where
  service : Schema.Service
  method : Method
  request : Side
  response : Side
  deriving DecidableEq, Repr

namespace Binding

def of (mapper : Mapper) (service : Schema.Service) (method : Method) :
    Except Mapping.Error Binding := do
  let request ← Side.of mapper method.input
  let response ← Side.of mapper method.output
  return { service, method, request, response }

def shape (b : Binding) : Rpc.Shape := b.method.shape

def constant (b : Binding) : String := methodConstant b.service b.method

def unimplemented (b : Binding) : String := unimplementedName b.service b.method

def constantLines (b : Binding) : List String :=
  ["", b.constant ++ " = _rpc.RpcMethod(",
    "    service=" ++ serviceConstant b.service ++ ",",
    "    name=\"" ++ b.method.name ++ "\",",
    "    shape=_rpc.RpcShape." ++ b.shape.constant ++ ",",
    "    request_serializer=" ++ b.request.host.text ++ ".SerializeToString,",
    "    request_deserializer=" ++ b.request.host.text ++ ".FromString,",
    "    response_serializer=" ++ b.response.host.text ++ ".SerializeToString,",
    "    response_deserializer=" ++ b.response.host.text ++ ".FromString,",
    "    request_to_idiom=" ++ b.request.reader.text ++ ",",
    "    request_to_host=" ++ b.request.writer.text ++ ",",
    "    response_to_idiom=" ++ b.response.reader.text ++ ",",
    "    response_to_host=" ++ b.response.writer.text ++ ",",
    ")"]

def constantImports (b : Binding) : List Import :=
  b.request.converterImports ++ b.request.hostImports ++
    b.response.converterImports ++ b.response.hostImports

end Binding

end ProtoBindings.Service
