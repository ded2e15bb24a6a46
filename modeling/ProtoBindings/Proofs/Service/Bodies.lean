import ProtoBindings.Proofs.Service.Context

namespace ProtoBindings.Service

open Code (Arguments Expr Function Param Path Shown Stmt blockPaths)
open Value (Context)

variable {c : Context}

structure Equipped (c : Context) : Prop where
  grpc : { module := "grpc" } ∈ c.imports
  metadata : .metadataSupport ∈ c.imports
  rpc : .rpcSupport ∈ c.imports
  adapter : adapterName ∈ c.defined

structure Binding.Known (c : Context) (b : Binding) : Prop where
  constant : b.constant ∈ c.defined
  attributes : ∀ id ∈ rpcAttributes, (b.constant, id) ∈ c.members
  shown : Shown b.constant
  request : b.request.Closed c
  response : b.response.Closed c

section Adapter

def adapterPaths : List Path :=
  adapterLocals.map ([·]) ++ [[adapterName], ["Callable"], ["ValueError"], ["_metadata", "attach"]] ++
  ["RpcMethod", "StatusError", "map_async"].map (["_rpc", ·]) ++
  ["UNARY", "CLIENT_STREAMING", "SERVER_STREAMING", "BIDI_STREAMING"].map (["_rpc", "RpcShape", ·]) ++
  ["RpcMethodHandler", "unary_unary_rpc_method_handler", "stream_unary_rpc_method_handler",
    "unary_stream_rpc_method_handler", "stream_stream_rpc_method_handler"].map (["grpc", ·]) ++
  ["shape", "request_to_idiom", "response_to_host", "request_deserializer", "response_serializer",
    "full_name"].map (["method", ·]) ++
  [["context", "invocation_metadata"], ["context", "abort"], ["error", "code"], ["error", "details"]]

theorem adapterLines_paths : ∀ line ∈ adapterLines, ∀ p ∈ Code.pathsOf line.toList, p ∈ adapterPaths := by
  -- The text of a line is known by its characters, which evaluating `toList` takes far longer to find.
  have each : ∀ line ∈ adapterLines, ∃ cs, line = String.ofList cs ∧
      ∀ p ∈ Code.pathsOf cs, p ∈ adapterPaths := by
    simp only [adapterLines, List.forall_mem_cons, List.not_mem_nil, false_imp_iff, implies_true,
      and_true]
    and_intros
    all_goals exact ⟨_, rfl, by decide +kernel⟩
  intro line isLine
  obtain ⟨cs, rfl, known⟩ := each line isLine
  rwa [String.toList_ofList]

theorem adapter_paths : ∀ p ∈ adapterItem.deferred, p = [adapterName] ∨ p = ["ValueError"] ∨
    p = ["Callable"] ∨ ∃ id ∈ p.head?, id = "_rpc" ∨ id = "_metadata" ∨ id = "grpc" := by
  have free : ∀ p ∈ Code.freePaths adapterLocals adapterPaths, p = [adapterName] ∨ p = ["ValueError"] ∨
      p = ["Callable"] ∨ ∃ id ∈ p.head?, id = "_rpc" ∨ id = "_metadata" ∨ id = "grpc" := by
    decide +kernel
  intro p member
  obtain ⟨member, isFree⟩ := Code.mem_freePaths.mp member
  obtain ⟨line, isLine, member⟩ := List.mem_flatMap.mp member
  exact free p (Code.mem_freePaths.mpr ⟨adapterLines_paths line isLine p member, isFree⟩)

theorem adapterItem_resolves (equipped : Equipped c) (callable : .typing "Callable" ∈ c.imports) :
    ∀ p ∈ adapterItem.deferred, Resolves c p := by
  intro p member
  rcases adapter_paths p member with rfl | rfl | rfl | ⟨id, isHead, known⟩
  · exact resolves_own equipped.adapter
  · exact .builtin _ (by decide)
  · exact resolves_library (.typing "Callable" (by decide)) callable []
  · cases p with
    | nil => cases isHead
    | cons first rest =>
      cases isHead
      rcases known with rfl | rfl | rfl
      · exact resolves_library .rpc equipped.rpc rest
      · exact resolves_library .metadata equipped.metadata rest
      · exact resolves_library (.module "grpc" (by decide)) equipped.grpc rest

end Adapter

section Method

variable {b : Binding} {locals : List String} (equipped : Equipped c) (known : b.Known c)

theorem asyncIterator_resolves {e : Expr} (plain : ∀ p ∈ e.paths, Resolves c p)
    (imported : .typing "AsyncIterator" ∈ c.imports) : ∀ p ∈ (asyncIterator e).paths, Resolves c p :=
  typing_resolves (List.forall_mem_singleton.mpr plain) (by decide) imported

include known in
theorem Binding.responseType_resolves
    (imported : b.shape.streamsResponses = true → .typing "AsyncIterator" ∈ c.imports) :
    ∀ p ∈ b.responseType.paths, Resolves c p := by
  have plain := resolves_covered known.response.type
  rw [responseType]
  split
  · rename_i streams
    exact asyncIterator_resolves plain (imported streams)
  · exact plain

include known in
theorem Binding.signature_resolves (imported : b.signatureImports ⊆ c.imports) :
    (∀ p ∈ b.requestType.paths, Resolves c p) ∧ ∀ p ∈ b.responseType.paths, Resolves c p := by
  have plain := resolves_covered known.request.type
  constructor
  · rw [requestType]
    split
    · rename_i streams
      exact asyncIterator_resolves plain (imported (by simp [signatureImports, streams]))
    · exact plain
  · exact b.responseType_resolves known fun streams => imported (by simp [signatureImports, streams])

theorem Binding.constantItem_resolves (ofRpc : .rpcSupport ∈ c.imports)
    (defined : serviceConstant b.service ∈ c.defined) (request : b.request.Closed c)
    (response : b.response.Closed c) : ∀ p ∈ b.constantItem.evaluated, Resolves c p := by
  have rpc := resolves_library .rpc ofRpc
  have shape : ((dotted "_rpc" "RpcShape").attribute b.shape.constant).paths =
      [["_rpc", "RpcShape", b.shape.constant]] := rfl
  simp only [constantItem, constantArguments, List.forall_mem_cons, List.flatMap_cons, List.flatMap_nil,
    List.append_nil, List.forall_mem_append, shape]
  exact ⟨rpc _, resolves_own defined, ⟨rpc _, List.forall_mem_nil _⟩, resolves_covered (request.host _),
    resolves_covered (request.host _), resolves_covered (response.host _),
    resolves_covered (response.host _), resolves_covered request.reader,
    resolves_covered request.writer, resolves_covered response.reader,
    resolves_covered response.writer⟩

include equipped in
theorem Binding.raise_sound : Sound c locals (blockPaths [b.raiseUnimplemented]) := by
  have paths : blockPaths [b.raiseUnimplemented] = [["_rpc", "unimplemented"]] := rfl
  rw [paths]
  exact sound_library .rpc equipped.rpc (by decide)

include known in
theorem Binding.Known.attribute_sound {id : String} (listed : id ∈ rpcAttributes) :
    Sound c locals (dotted b.constant id).paths := by
  have plain : ∀ id ∈ rpcAttributes, Shown id := by decide
  have paths : (dotted b.constant id).paths = [[b.constant, id]] := rfl
  rw [paths, sound_cons]
  refine ⟨.inr ⟨.value (.member _ _ (known.attributes id listed)), ?_⟩, sound_nil⟩
  simp [known.shown, plain id listed]

include equipped known in
theorem Binding.servicerMethod_closed (imported : b.signatureImports ⊆ c.imports) :
    Closed c b.servicerMethod where
  annotations := by
    have paths : b.servicerMethod.annotationPaths = b.requestType.paths ++ b.responseType.paths := by
      simp [Function.annotationPaths, servicerMethod, Param.annotated, Param.self, requestParam,
        Param.typed]
    rw [paths, List.forall_mem_append]
    exact b.signature_resolves known imported
  body := b.raise_sound equipped

include equipped known in
theorem Binding.unimplementedFunction_resolves (imported : b.signatureImports ⊆ c.imports) :
    ∀ p ∈ b.unimplementedFunction.deferred, Resolves c p := by
  have paths : b.unimplementedFunction.annotationPaths =
      b.requestType.paths ++ b.responseType.paths := by
    simp [Function.annotationPaths, unimplementedFunction, Param.annotated, requestParam, Param.typed]
  have body : Sound c b.unimplementedFunction.locals (blockPaths b.unimplementedFunction.body) :=
    b.raise_sound equipped
  rw [Function.deferred_eq, paths, List.forall_mem_append, List.forall_mem_append]
  exact ⟨b.signature_resolves known imported, fun p member => (body.bodyPaths p member).1⟩

section Client

theorem value_typing_resolves {type : String} (listed : type ∈ ["Dict", "List", "Optional", "Union"])
    (imported : .typing type ∈ c.imports) : Resolves c [type] :=
  .value (Context.resolves_library (.typing type listed) imported [])

include known in
theorem Binding.clientParam_resolves (imported : b.clientMethod.imports ⊆ c.imports) :
    ∀ p ∈ b.clientRequestParam.annotated, Resolves c p := by
  have plain := resolves_covered known.request.type
  rw [clientRequestParam]
  split
  · rename_i streams
    have isImport {i : Import} (listed : i ∈ [.typing "AsyncIterable", .typing "Iterable", .typing "Union"]) :
        i ∈ c.imports := imported (by simp [clientMethod, streams] at listed ⊢; tauto)
    have each : ∀ e ∈ [b.request.type], ∀ p ∈ e.paths, Resolves c p :=
      List.forall_mem_singleton.mpr plain
    have union : Resolves c ["Union"] := value_typing_resolves (by decide) (isImport (by simp))
    have iterables : ∀ e ∈ [Expr.generic "AsyncIterable" [b.request.type],
        Expr.generic "Iterable" [b.request.type]], ∀ p ∈ e.paths, Resolves c p := by
      simp only [List.forall_mem_cons]
      exact ⟨typing_resolves each (by decide) (isImport (by simp)),
        typing_resolves each (by decide) (isImport (by simp)), List.forall_mem_nil _⟩
    simpa [Param.annotated, Param.typed] using generic_resolves iterables union
  · split <;> simpa [Param.annotated, Param.typed] using plain

theorem sound_local {id : String} (isLocal : id ∈ locals) (rest : Path) : Sound c locals [id :: rest] := by
  simp [isLocal]

theorem sound_apply {callee : Expr} {arguments : List Expr} (ofCallee : Sound c locals callee.paths)
    (each : ∀ e ∈ arguments, Sound c locals e.paths) : Sound c locals (callee.apply arguments).paths := by
  rw [Expr.apply, Expr.paths, Arguments.paths_ofList, sound_append]
  exact ⟨ofCallee, sound_flatMap each⟩

structure Binding.ClientLocals (b : Binding) (locals : List String) : Prop where
  object : "self" ∈ locals
  request : (if b.shape.streamsRequests then "requests" else "request") ∈ locals
  timeout : "timeout" ∈ locals
  metadata : "metadata" ∈ locals

theorem Binding.clientLocals : b.ClientLocals b.clientMethod.locals := by
  have request : (if b.shape.streamsRequests then "requests" else "request") ∈
      b.clientRequestParam.bound := by
    rw [clientRequestParam]
    split
    · simp [Param.typed, Param.bound]
    · split <;> simp [Param.typed, Param.bound]
  constructor
  all_goals simp [Function.locals, clientMethod, Param.bound, Param.self]
  exact .inr (.inl request)

include equipped known in
theorem Binding.outgoing_sound (params : b.ClientLocals locals) : Sound c locals b.outgoing.paths := by
  have request := params.request
  have writer := @Binding.Known.attribute_sound c b locals known "request_to_host" (by decide)
  rw [outgoing]
  split
  · rename_i streams
    rw [if_pos streams] at request
    have mapped : Sound c locals (dotted "_rpc" "map_async").paths :=
      sound_library .rpc equipped.rpc (by decide)
    refine sound_apply mapped (List.forall_mem_cons.mpr ⟨sound_local request [], ?_⟩)
    exact List.forall_mem_singleton.mpr writer
  · rename_i single
    rw [if_neg single] at request
    exact sound_apply writer (List.forall_mem_singleton.mpr (sound_local request []))

theorem Binding.remoteCall_paths : b.remoteCall.paths =
    ["self", stubAttribute b.method] :: (b.outgoing.paths ++ [["timeout"], ["metadata"]]) := rfl

include equipped known in
theorem Binding.remoteCall_sound (params : b.ClientLocals locals) :
    Sound c locals b.remoteCall.paths := by
  rw [remoteCall_paths, sound_cons, sound_append]
  refine ⟨.inl ?_, b.outgoing_sound equipped known params, ?_⟩
  · simpa using params.object
  · simp [params.timeout, params.metadata]

theorem Binding.clientBody_bound : Code.blockBound b.clientBody =
    if b.shape.streamsResponses then ["call", "response"] else ["response"] := by
  rw [clientBody]
  split <;> split <;> rfl

include equipped known in
theorem Binding.clientBody_sound (imported : b.clientMethod.imports ⊆ c.imports) :
    Sound c b.clientMethod.locals (blockPaths b.clientBody) := by
  have call := b.remoteCall_sound equipped known b.clientLocals
  have bound {id : String} (isBound : id ∈ Code.blockBound b.clientBody) :
      Sound c b.clientMethod.locals [[id]] := sound_local (List.mem_append_right _ isBound) []
  have incoming : Sound c b.clientMethod.locals
      ((dotted b.constant "response_to_idiom").apply [.name "response"]).paths := by
    have response : "response" ∈ Code.blockBound b.clientBody := by
      rw [clientBody_bound]
      split <;> simp
    refine sound_apply (known.attribute_sound (by decide)) ?_
    exact List.forall_mem_singleton.mpr (bound response)
  rw [clientBody, Code.blockPaths_append, sound_append]
  constructor
  · split
    · rename_i deprecated
      have isImport : { module := "warnings" } ∈ c.imports :=
        imported (by simp [clientMethod, deprecated])
      have paths : blockPaths [b.deprecationWarning] =
          [["warnings", "warn"]] ++ [["DeprecationWarning"]] := rfl
      rw [paths, sound_append]
      refine ⟨sound_library (.module "warnings" (by decide)) isImport (by decide), ?_⟩
      rw [sound_cons]
      exact ⟨.inr ⟨.builtin _ (by decide), by decide⟩, sound_nil⟩
    · exact sound_nil
  · split
    · rename_i streams
      have isCall : Sound c b.clientMethod.locals [["call"]] :=
        bound (by simp [clientBody_bound, streams])
      simp only [blockPaths, Stmt.paths, Code.Head.paths, sound_append, sound_nil, and_true]
      exact ⟨⟨isCall, call⟩, isCall, incoming⟩
    · rename_i single
      have isResponse : Sound c b.clientMethod.locals [["response"]] :=
        bound (by simp [clientBody_bound, single])
      simp only [blockPaths, Stmt.paths, sound_append, sound_nil, and_true]
      exact ⟨⟨isResponse, call⟩, incoming⟩

include equipped known in
theorem Binding.clientMethod_closed (imported : b.clientMethod.imports ⊆ c.imports) :
    Closed c b.clientMethod where
  annotations := by
    have optional : Resolves c ["Optional"] :=
      value_typing_resolves (by decide) (imported (by simp [clientMethod]))
    have number : Resolves c ["float"] := .value (.builtin _ (by decide))
    have metadata : Resolves c ["_metadata", "Metadata"] :=
      resolves_library .metadata equipped.metadata ["Metadata"]
    have paths : b.clientMethod.annotationPaths = b.clientRequestParam.annotated ++
        [["Optional"], ["float"], ["Optional"], ["_metadata", "Metadata"]] ++ b.responseType.paths := by
      simp [Function.annotationPaths, clientMethod, Param.annotated, Param.self, Expr.paths_generic,
        Expr.paths, dotted, Expr.dotted?]
    rw [paths, List.forall_mem_append, List.forall_mem_append]
    refine ⟨⟨b.clientParam_resolves known imported, ?_⟩, ?_⟩
    · simp only [List.forall_mem_cons]
      exact ⟨optional, number, optional, metadata, List.forall_mem_nil _⟩
    · exact b.responseType_resolves known fun streams => imported (by simp [clientMethod, streams])
  body := b.clientBody_sound equipped known imported

end Client

section Partial

include known in
theorem Binding.implementationType_resolves (imported : b.implementationImports ⊆ c.imports) :
    ∀ p ∈ b.implementationType.paths, Resolves c p := by
  obtain ⟨ofSignature, ofTyping⟩ := List.append_subset.mp imported
  obtain ⟨ofSignature, callable⟩ := List.append_subset.mp ofSignature
  obtain ⟨request, response⟩ := b.signature_resolves known ofSignature
  have result : ∀ p ∈ (if b.shape.streamsResponses then b.responseType
      else .generic "Awaitable" [b.responseType]).paths, Resolves c p := by
    split
    · exact response
    · rename_i single
      rw [if_neg single] at ofTyping
      exact typing_resolves (List.forall_mem_singleton.mpr response) (by decide)
        (ofTyping List.mem_cons_self)
  refine typing_resolves ?_ (by decide) (callable List.mem_cons_self)
  simp only [List.forall_mem_cons, Expr.paths, Arguments.paths_ofList]
  exact ⟨by simpa using request, result, List.forall_mem_nil _⟩

end Partial

end Method

section Class

variable {bindings : List Binding} (equipped : Equipped c) (known : ∀ b ∈ bindings, b.Known c)

theorem Binding.openOnChannel_paths (b : Binding) : b.openOnChannel.paths =
    [["self", stubAttribute b.method]] ++ [["channel", b.shape.channelFactory]] ++
      ((dotted b.constant "path").paths ++ ((dotted b.constant "request_serializer").paths ++
        (dotted b.constant "response_deserializer").paths)) := rfl

include equipped known in
theorem clientInit_closed : Closed c (clientInit bindings) where
  annotations := by
    have paths : (clientInit bindings).annotationPaths = [["grpc", "aio", "Channel"]] := rfl
    rw [paths, List.forall_mem_singleton]
    exact resolves_library (.module "grpc" (by decide)) equipped.grpc _
  body := by
    have params {id : String} (isParam : id ∈ ["self", "channel"]) (rest : Path) :
        Sound c (clientInit bindings).locals [id :: rest] :=
      sound_local (List.mem_append_left _ isParam) rest
    rw [Code.blockPaths_eq_flatMap, clientInit, List.flatMap_map]
    refine sound_flatMap fun b member => ?_
    simp only [Binding.openOnChannel_paths, sound_append]
    exact ⟨⟨params (by simp) _, params (by simp) _⟩, (known b member).attribute_sound (by decide),
      (known b member).attribute_sound (by decide), (known b member).attribute_sound (by decide)⟩

include equipped known in
theorem handlerFunction_closed {service : Schema.Service} (defined : serviceConstant service ∈ c.defined)
    (shown : Shown (serviceConstant service)) (implementation : Binding → String) :
    Closed c (handlerFunction service implementation bindings) where
  annotations := by
    have paths : (handlerFunction service implementation bindings).annotationPaths =
        [["grpc", "GenericRpcHandler"]] := rfl
    rw [paths, List.forall_mem_singleton]
    exact resolves_library (.module "grpc" (by decide)) equipped.grpc _
  body := by
    have self : "self" ∈ (handlerFunction service implementation bindings).locals := List.mem_cons_self
    have adapter := @sound_own c (handlerFunction service implementation bindings).locals _
      equipped.adapter (by decide)
    rw [Code.blockPaths_eq_flatMap]
    simp only [handlerFunction, List.flatMap_cons, List.flatMap_nil, Stmt.paths, sound_append, sound_nil,
      and_true, List.flatMap_map]
    refine ⟨⟨sound_library (.module "grpc" (by decide)) equipped.grpc (by decide),
      sound_own defined shown⟩, sound_flatMap fun b member => sound_apply adapter ?_⟩
    simp only [List.forall_mem_cons]
    exact ⟨sound_own (known b member).constant (known b member).shown, sound_local self _, List.forall_mem_nil _⟩

include equipped in
theorem addToServer_closed : Closed c addToServer where
  annotations := by
    have paths : addToServer.annotationPaths = [["grpc", "aio", "Server"]] := rfl
    rw [paths, List.forall_mem_singleton]
    exact resolves_library (.module "grpc" (by decide)) equipped.grpc _
  body := by
    have paths : blockPaths addToServer.body =
        [["server", "add_generic_rpc_handlers"]] ++ [["self", "bind"]] := rfl
    rw [paths, sound_append]
    exact ⟨sound_local (by decide) _, sound_local (by decide) _⟩

include known in
theorem partialInit_closed (imported : ∀ b ∈ bindings, b.implementationImports ⊆ c.imports) :
    Closed c (partialInit bindings) where
  annotations := by
    have paths : (partialInit bindings).annotationPaths =
        bindings.flatMap fun b => b.implementationType.paths := by
      simp [Function.annotationPaths, partialInit, Param.annotated, Param.self, List.flatMap_map,
        Expr.paths, Expr.none]
    rw [paths, List.forall_mem_flatMap]
    exact fun b member => b.implementationType_resolves (known b member) (imported b member)
  body := by
    have bound : (partialInit bindings).params.flatMap (·.bound) =
        "self" :: bindings.map (methodName ·.method) := by
      rw [partialInit, List.flatMap_append, List.flatMap_map, List.map_eq_flatMap]
      rfl
    have params {id : String} (isParam : id ∈ "self" :: bindings.map (methodName ·.method))
        (rest : Path) : Sound c (partialInit bindings).locals [id :: rest] :=
      sound_local (List.mem_append_left _ (bound ▸ isParam)) rest
    rw [Code.blockPaths_eq_flatMap]
    have body : (partialInit bindings).body.flatMap (·.paths) = bindings.flatMap fun b =>
        [["self", partialAttribute b]] ++ [[methodName b.method]] := by
      rw [partialInit, List.flatMap_map]
      rfl
    rw [body]
    refine sound_flatMap fun b member => sound_append.mpr ⟨params List.mem_cons_self _, ?_⟩
    exact params (List.mem_cons_of_mem _ (List.mem_map.mpr ⟨b, member, rfl⟩)) []

end Class

end ProtoBindings.Service
