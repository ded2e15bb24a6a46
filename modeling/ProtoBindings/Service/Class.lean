import ProtoBindings.Service.Adapter
import ProtoBindings.Service.Method

namespace ProtoBindings.Service

open Code (Arguments Expr Function Param Stmt)

def selfName : Expr := .name "self"

def dotted (owner id : String) : Expr := .attribute (.name owner) id

def asyncIterator (type : Expr) : Expr := .generic "AsyncIterator" [type]

namespace Binding

def requestType (b : Binding) : Expr :=
  if b.shape.streamsRequests then asyncIterator b.request.type else b.request.type

def responseType (b : Binding) : Expr :=
  if b.shape.streamsResponses then asyncIterator b.response.type else b.response.type

def signatureImports (b : Binding) : List Import :=
  b.request.typeImports ++ b.response.typeImports ++
    (if b.shape.streamsRequests || b.shape.streamsResponses then [.typing "AsyncIterator"] else [])

def requestParam (b : Binding) : Param :=
  .typed (if b.shape.streamsRequests then "requests" else "request") b.requestType

def raiseUnimplemented (b : Binding) : Stmt :=
  .raise ((dotted "_rpc" "unimplemented").apply [.string b.method.fullName])

def servicerMethod (b : Binding) : Function where
  name := methodName b.method
  params := [.self, b.requestParam]
  returns := b.responseType
  body := [b.raiseUnimplemented]
  isAsync := !b.shape.streamsResponses
  imports := b.signatureImports

def unimplementedFunction (b : Binding) : Function where
  name := b.unimplemented
  params := [b.requestParam]
  returns := b.responseType
  body := [b.raiseUnimplemented]
  isAsync := !b.shape.streamsResponses
  imports := b.signatureImports

def implementationType (b : Binding) : Expr :=
  let result :=
    if b.shape.streamsResponses then b.responseType else .generic "Awaitable" [b.responseType]
  .generic "Callable" [.list (.ofList [b.requestType]), result]

def implementationImports (b : Binding) : List Import :=
  b.signatureImports ++ [.typing "Callable"] ++
    (if b.shape.streamsResponses then [] else [.typing "Awaitable"])

def clientRequestParam (b : Binding) : Param :=
  if b.shape.streamsRequests then
    .typed "requests" (.generic "Union"
      [.generic "AsyncIterable" [b.request.type], .generic "Iterable" [b.request.type]])
  else if b.request.isEmpty then .named "request" (some b.request.type) (some .none)
  else .typed "request" b.request.type

def outgoing (b : Binding) : Expr :=
  let writer := dotted b.constant "request_to_host"
  if b.shape.streamsRequests then
    (dotted "_rpc" "map_async").apply [.name "requests", writer]
  else writer.apply [.name "request"]

def remoteCall (b : Binding) : Expr :=
  .call (.attribute selfName (stubAttribute b.method))
    (.positional b.outgoing (.ofKeywords
      [("timeout", .name "timeout"), ("metadata", .name "metadata")]))

def deprecationWarning (b : Binding) : Stmt :=
  .expr (.call (dotted "warnings" "warn")
    (.positional (.string (b.method.fullName ++ " is deprecated"))
      (.positional (.name "DeprecationWarning") (.keyword "stacklevel" (.number 2) .nil))))

def clientBody (b : Binding) : List Stmt :=
  let incoming := (dotted b.constant "response_to_idiom").apply [.name "response"]
  (if b.method.deprecated then [b.deprecationWarning] else []) ++
  if b.shape.streamsResponses then
    [.assign (.name "call") b.remoteCall, .compound (.eachResponse (.name "call")) [.yield incoming]]
  else [.assign (.name "response") (.await b.remoteCall), .ret incoming]

def clientMethod (b : Binding) : Function where
  name := methodName b.method
  params := [.self, b.clientRequestParam, .byNameOnly,
    .named "timeout" (some (.generic "Optional" [.name "float"])) (some .none),
    .named "metadata" (some (.generic "Optional" [dotted "_metadata" "Metadata"])) (some .none)]
  returns := b.responseType
  body := b.clientBody
  isAsync := true
  imports := .typing "Optional" :: b.request.typeImports ++ b.response.typeImports ++
    (if b.method.deprecated then [{ module := "warnings" }] else []) ++
    (if b.shape.streamsRequests then
      [.typing "AsyncIterable", .typing "Iterable", .typing "Union"]
    else []) ++
    (if b.shape.streamsResponses then [.typing "AsyncIterator"] else [])

def openOnChannel (b : Binding) : Stmt :=
  .assignCall (.attribute selfName (stubAttribute b.method))
    (dotted "channel" b.shape.channelFactory)
    (.positional (dotted b.constant "path") (.ofKeywords
      [("request_serializer", dotted b.constant "request_serializer"),
        ("response_deserializer", dotted b.constant "response_deserializer")]))

def handlerEntry (implementation : Binding → String) (b : Binding) : String × Expr :=
  (b.method.name, (Expr.name adapterName).apply
    [.name b.constant, .attribute selfName (implementation b)])

end Binding

def clientInit (bindings : List Binding) : Function where
  name := "__init__"
  params := [.self, .typed "channel" (.attribute (dotted "grpc" "aio") "Channel")]
  returns := .none
  body := bindings.map (·.openOnChannel)

def handlerFunction (service : Schema.Service) (implementation : Binding → String)
    (bindings : List Binding) : Function where
  name := "bind"
  params := [.self]
  returns := dotted "grpc" "GenericRpcHandler"
  body := [.retTable (dotted "grpc" "method_handlers_generic_handler")
    (.name (serviceConstant service)) (bindings.map (·.handlerEntry implementation))]
  doc := some ("Generic handler serving ``" ++ service.fullName ++ "``.")

def addToServer : Function where
  name := "add_to_server"
  params := [.self, .typed "server" (.attribute (dotted "grpc" "aio") "Server")]
  returns := .none
  body := [.expr ((dotted "server" "add_generic_rpc_handlers").apply
    [.singleton ((Expr.attribute selfName "bind").apply [])])]

def partialAttribute (b : Binding) : String := "_" ++ methodName b.method

def partialInit (bindings : List Binding) : Function where
  name := "__init__"
  params := [.self, .byNameOnly] ++ bindings.map fun b =>
    .named (methodName b.method) (some b.implementationType) (some (.name b.unimplemented))
  returns := .none
  body := bindings.map fun b =>
    .assign (.attribute selfName (partialAttribute b)) (.name (methodName b.method))
  imports := bindings.flatMap (·.implementationImports)

structure ServiceClass where
  name : String
  docLines : List String
  methods : List Function
  deriving Repr

def servicerClass (service : Schema.Service) (bindings : List Binding) : ServiceClass where
  name := service.name ++ "Servicer"
  docLines := ["    \"\"\"Base class for ``" ++ service.fullName ++ "`` implementations.", "",
    "    Override the methods you serve; the rest answer ``UNIMPLEMENTED``.", "    \"\"\""]
  methods := bindings.map (·.servicerMethod) ++
    [handlerFunction service (methodName ·.method) bindings, addToServer]

def clientClass (service : Schema.Service) (bindings : List Binding) : ServiceClass where
  name := service.name ++ "Stub"
  docLines :=
    ["    \"\"\"Client for ``" ++ service.fullName ++ "`` speaking the generated value types.\"\"\""]
  methods := clientInit bindings :: bindings.map (·.clientMethod)

def partialClass (service : Schema.Service) (bindings : List Binding) : ServiceClass where
  name := service.name ++ "Partial"
  docLines := ["    \"\"\"``" ++ service.fullName ++
      "`` assembled from individual method implementations.", "",
    "    Every method not passed to the constructor answers ``UNIMPLEMENTED``.", "    \"\"\""]
  methods := [partialInit bindings, handlerFunction service partialAttribute bindings, addToServer]

end ProtoBindings.Service
