import ProtoBindings.Plugin.Config
import ProtoBindings.Proofs.Service.Closure
import ProtoBindings.Proofs.Service.Signatures
import ProtoBindings.Proofs.Value.Keywords

namespace ProtoBindings.Service

open Code (Expr Function Param Stmt)
open Mapping (EnumIndex)
open Name (KeywordFree isKeyword)
open Schema (FileUnit Method TypeRef)

section Names

variable {s : Schema.Service} (m : Method)

theorem isKeyword_methodName : isKeyword (methodName m) = false := by
  rw [methodName_eq]
  have free := Name.not_taken_suffixed isTaken_append (Name.snakeCase m.name)
  rw [isTaken, Bool.or_eq_false_iff] at free
  exact Name.isKeyword_of_isReserved free.2

theorem isKeyword_stubAttribute : isKeyword (stubAttribute m) = false :=
  Name.isKeyword_underscore_append _

theorem isKeyword_methodConstant : isKeyword (methodConstant s m) = false :=
  Name.isKeyword_of_underscore (by simp [methodConstant])

theorem isKeyword_unimplementedName : isKeyword (unimplementedName s m) = false :=
  Name.isKeyword_of_underscore (by simp [unimplementedName])

theorem isKeyword_serviceConstant : isKeyword (serviceConstant s) = false :=
  Name.isKeyword_of_underscore (by simp [serviceConstant])

theorem isKeyword_partialAttribute (b : Binding) : isKeyword (partialAttribute b) = false :=
  Name.isKeyword_underscore_append _

theorem isKeyword_serviceClass {ending : String} (isEnding : ending ∈ ["Servicer", "Stub", "Partial"])
    (name : String) : isKeyword (name ++ ending) = false := by
  have apart : ∀ known ∈ Name.keywords, ∀ ending ∈ ["Servicer", "Stub", "Partial"],
      ¬ ending.toList <:+ known.toList := by decide
  refine Bool.eq_false_iff.mpr fun keyword => apart _ (Name.mem_of_isKeyword keyword) ending isEnding ?_
  rw [String.toList_append]
  exact List.suffix_append _ _

end Names

structure Side.Free (side : Side) : Prop where
  host : KeywordFree side.host.identifiers
  type : KeywordFree side.type.identifiers
  reader : KeywordFree side.reader.identifiers
  writer : KeywordFree side.writer.identifiers

section Side

variable {mapper : Mapper} {ref : TypeRef} {side : Side} (result : Side.of mapper ref = .ok side)
include result

theorem Side.of_host : side.host = (hostClass ref).expr := by
  rw [Side.of] at result
  split at result
  · cases result
    rfl
  · simp only [Result.bind_eq_ok, Result.pure_eq_ok] at result
    obtain ⟨_, _, _, _, _, _, rfl⟩ := result
    rfl

theorem Side.free_of_path (path : KeywordFree ref.path) : side.Free := by
  have value : isKeyword "value" = false := by decide
  have host : KeywordFree (hostClass ref).expr.identifiers := keywordFree_hostClass.mpr path
  rw [Side.of] at result
  split at result
  · cases result
    have created := Code.keywordFree_apply.mpr ⟨host, List.forall_mem_nil _⟩
    exact ⟨host, Code.keywordFree_none, Name.keywordFree_cons.mpr ⟨value, Code.keywordFree_none⟩,
      Name.keywordFree_cons.mpr ⟨value, created⟩⟩
  · simp only [Result.bind_eq_ok, Result.pure_eq_ok] at result
    obtain ⟨reader, isReader, writer, isWriter, mapped, isMapped, rfl⟩ := result
    have clear : (Schema.ElementType.message ref).Clear := by
      intro other isHost
      rw [Schema.ElementType.hostRef?] at isHost
      split at isHost
      · cases isHost
        exact path
      · cases isHost
    exact ⟨host, (Mapper.mapElement_keywordFree_iff isMapped).1.mpr clear,
      keywordFree_callable (Mapper.reader_keywordFree isReader),
      keywordFree_callable (Mapper.writer_keywordFree isWriter)⟩

end Side

structure Binding.Free (b : Binding) : Prop where
  request : b.request.Free
  response : b.response.Free

def Binding.constantIdentifiers (b : Binding) : List String :=
  [b.constant, "_rpc", "RpcMethod", "service", serviceConstant b.service, "name"] ++
    b.constantArguments.flatMap fun argument => argument.1 :: argument.2.identifiers

section Constant

variable {mapper : Mapper} {s : Schema.Service} {m : Method} {b : Binding}
  (result : Binding.of mapper s m = .ok b)
include result

theorem Binding.free_of_paths (input : KeywordFree m.input.path) (output : KeywordFree m.output.path) :
    b.Free := by
  simp only [Binding.of, Result.bind_eq_ok, Result.pure_eq_ok] at result
  obtain ⟨request, ofInput, response, ofOutput, rfl⟩ := result
  exact ⟨Side.free_of_path ofInput input, Side.free_of_path ofOutput output⟩

theorem Binding.constant_keywordFree_iff : KeywordFree b.constantIdentifiers ↔
    KeywordFree m.input.path ∧ KeywordFree m.output.path := by
  have fixed : KeywordFree ["_rpc", "RpcMethod", "RpcShape", "service", "name", "shape",
      "request_serializer", "request_deserializer", "response_serializer", "response_deserializer",
      "request_to_idiom", "request_to_host", "response_to_idiom", "response_to_host",
      "SerializeToString", "FromString"] := by decide
  have shape : isKeyword b.shape.constant = false := by
    cases b.shape <;> decide
  simp only [Name.keywordFree_cons] at fixed
  have own : isKeyword b.constant = false := isKeyword_methodConstant _
  have all : KeywordFree b.constantIdentifiers ↔
      KeywordFree b.request.host.identifiers ∧ KeywordFree b.response.host.identifiers ∧
        KeywordFree b.request.reader.identifiers ∧ KeywordFree b.request.writer.identifiers ∧
        KeywordFree b.response.reader.identifiers ∧ KeywordFree b.response.writer.identifiers := by
    simp [constantIdentifiers, constantArguments, dotted, fixed, shape, own, isKeyword_serviceConstant]
  rw [all]
  constructor
  · rintro ⟨request, response, _⟩
    simp only [Binding.of, Result.bind_eq_ok, Result.pure_eq_ok] at result
    obtain ⟨_, ofInput, _, ofOutput, rfl⟩ := result
    rw [Side.of_host ofInput, keywordFree_hostClass] at request
    rw [Side.of_host ofOutput, keywordFree_hostClass] at response
    exact ⟨request, response⟩
  · rintro ⟨input, output⟩
    obtain ⟨request, response⟩ := Binding.free_of_paths result input output
    exact ⟨request.host, response.host, request.reader, request.writer, response.reader,
      response.writer⟩

end Constant

section Methods

variable {s : Schema.Service} {bindings : List Binding} {b : Binding}

@[simp] theorem keywordFree_dotted {owner id : String} :
    KeywordFree (dotted owner id).identifiers ↔ isKeyword owner = false ∧ isKeyword id = false := by
  simp [dotted]

@[simp] theorem keywordFree_selfName : KeywordFree selfName.identifiers := by decide

theorem keywordFree_asyncIterator {type : Expr} (free : KeywordFree type.identifiers) :
    KeywordFree (asyncIterator type).identifiers := by
  have name : isKeyword "AsyncIterator" = false := by decide
  simp [asyncIterator, name, free]

theorem Binding.keywordFree_raiseUnimplemented : KeywordFree b.raiseUnimplemented.identifiers := by
  have fixed : isKeyword "_rpc" = false ∧ isKeyword "unimplemented" = false := by decide
  simp [raiseUnimplemented, Stmt.identifiers, fixed]

theorem Binding.keywordFree_remoteCall : KeywordFree b.remoteCall.identifiers := by
  have fixed : KeywordFree ["timeout", "metadata", "_rpc", "map_async", "requests", "request",
      "request_to_host"] := by decide
  simp only [Name.keywordFree_cons] at fixed
  have constant : isKeyword b.constant = false := isKeyword_methodConstant _
  have outgoing : KeywordFree b.outgoing.identifiers := by
    rw [Binding.outgoing]
    split
    · simp [fixed, constant]
    · simp [fixed, constant]
  simp [remoteCall, Expr.identifiers, Code.Arguments.identifiers, Code.Arguments.identifiers_ofKeywords,
    fixed, outgoing, isKeyword_stubAttribute]

theorem Binding.keywordFree_clientBody : ∀ s ∈ b.clientBody, KeywordFree s.identifiers := by
  have fixed : KeywordFree ["warnings", "warn", "DeprecationWarning", "stacklevel", "response", "call",
      "response_to_idiom"] := by decide
  simp only [Name.keywordFree_cons] at fixed
  have constant : isKeyword b.constant = false := isKeyword_methodConstant _
  have remote := b.keywordFree_remoteCall
  have warning : KeywordFree b.deprecationWarning.identifiers := by
    simp [deprecationWarning, Stmt.identifiers, Expr.identifiers, Code.Arguments.identifiers, fixed]
  rw [clientBody, List.forall_mem_append]
  constructor
  · split
    · exact List.forall_mem_singleton.mpr warning
    · exact List.forall_mem_nil _
  · split
    · simp [Stmt.identifiers, Code.Head.identifiers, fixed, constant, remote]
    · simp [Stmt.identifiers, Expr.identifiers, fixed, constant, remote]

theorem clientInit_keywordFree : KeywordFree (clientInit bindings).identifiers := by
  have fixed : KeywordFree ["__init__", "channel", "grpc", "aio", "Channel", "path", "request_serializer",
      "response_deserializer"] := by decide
  have factories (shape : Rpc.Shape) : isKeyword shape.channelFactory = false := by
    cases shape <;> decide
  simp only [Name.keywordFree_cons] at fixed
  have constant (b : Binding) : isKeyword b.constant = false := isKeyword_methodConstant _
  rw [Code.keywordFree_function]
  simp [clientInit, Binding.openOnChannel, Stmt.identifiers, Code.Arguments.identifiers,
    Code.Arguments.identifiers_ofKeywords, fixed, factories, constant, isKeyword_stubAttribute]

theorem handlerFunction_keywordFree {implementation : Binding → String}
    (names : ∀ b ∈ bindings, isKeyword (implementation b) = false) :
    KeywordFree (handlerFunction s implementation bindings).identifiers := by
  have fixed : KeywordFree ["bind", "grpc", "GenericRpcHandler", "method_handlers_generic_handler",
      adapterName] := by decide
  simp only [Name.keywordFree_cons] at fixed
  have constant (b : Binding) : isKeyword b.constant = false := isKeyword_methodConstant _
  rw [Code.keywordFree_function]
  simpa [handlerFunction, Binding.handlerEntry, Stmt.identifiers, fixed, constant,
    isKeyword_serviceConstant] using names

theorem addToServer_keywordFree : KeywordFree addToServer.identifiers := by decide

section Typed

variable (free : b.Free)
include free

theorem Binding.keywordFree_requestType : KeywordFree b.requestType.identifiers := by
  rw [requestType]
  split
  · exact keywordFree_asyncIterator free.request.type
  · exact free.request.type

theorem Binding.keywordFree_responseType : KeywordFree b.responseType.identifiers := by
  rw [responseType]
  split
  · exact keywordFree_asyncIterator free.response.type
  · exact free.response.type

theorem Binding.keywordFree_requestParam : KeywordFree b.requestParam.identifiers := by
  have names : isKeyword "requests" = false ∧ isKeyword "request" = false := by decide
  rw [requestParam, Code.keywordFree_typed]
  refine ⟨?_, b.keywordFree_requestType free⟩
  split
  · exact names.1
  · exact names.2

theorem Binding.keywordFree_clientRequestParam : KeywordFree b.clientRequestParam.identifiers := by
  have fixed : KeywordFree ["requests", "request", "Union", "AsyncIterable", "Iterable"] := by decide
  simp only [Name.keywordFree_cons] at fixed
  rw [clientRequestParam]
  split
  · simp [fixed, free.request.type]
  · split
    · simp [fixed, free.request.type]
    · simp [fixed, free.request.type]

theorem Binding.keywordFree_implementationType : KeywordFree b.implementationType.identifiers := by
  have fixed : isKeyword "Callable" = false ∧ isKeyword "Awaitable" = false := by decide
  have request := b.keywordFree_requestType free
  have response := b.keywordFree_responseType free
  rw [implementationType]
  split
  · simp [Expr.identifiers, Code.Arguments.identifiers_ofList, fixed, request, response]
  · simp [Expr.identifiers, Code.Arguments.identifiers_ofList, fixed, request, response]

theorem Binding.servicerMethod_keywordFree : KeywordFree b.servicerMethod.identifiers := by
  rw [Code.keywordFree_function]
  simp [servicerMethod, isKeyword_methodName, b.keywordFree_requestParam free,
    b.keywordFree_responseType free, b.keywordFree_raiseUnimplemented]

theorem Binding.unimplementedFunction_keywordFree :
    KeywordFree b.unimplementedFunction.identifiers := by
  rw [Code.keywordFree_function]
  simp [unimplementedFunction, unimplemented, isKeyword_unimplementedName,
    b.keywordFree_requestParam free, b.keywordFree_responseType free, b.keywordFree_raiseUnimplemented]

theorem Binding.clientMethod_keywordFree : KeywordFree b.clientMethod.identifiers := by
  have fixed : KeywordFree ["timeout", "metadata", "Optional", "float", "_metadata", "Metadata"] := by
    decide
  simp only [Name.keywordFree_cons] at fixed
  rw [Code.keywordFree_function]
  simpa [clientMethod, isKeyword_methodName, b.keywordFree_clientRequestParam free,
    b.keywordFree_responseType free, fixed] using b.keywordFree_clientBody

end Typed

theorem partialInit_keywordFree (free : ∀ b ∈ bindings, b.Free) :
    KeywordFree (partialInit bindings).identifiers := by
  have fixed : isKeyword "__init__" = false := by decide
  have types : ∀ b ∈ bindings, KeywordFree b.implementationType.identifiers := fun b isBinding =>
    b.keywordFree_implementationType (free b isBinding)
  rw [Code.keywordFree_function]
  simpa [partialInit, Stmt.identifiers, fixed, Binding.unimplemented,
    isKeyword_methodName, isKeyword_unimplementedName, isKeyword_partialAttribute] using types

theorem Bound.functions_keywordFree {b : Bound} (free : ∀ r ∈ b.bindings, r.Free) :
    ∀ f ∈ b.allFunctions, KeywordFree f.identifiers := by
  intro f isFunction
  simp only [allFunctions, defaults, classes, servicerClass, clientClass, partialClass,
    List.flatMap_cons, List.flatMap_nil, List.append_nil, List.mem_append, List.mem_cons, List.mem_map,
    List.not_mem_nil, or_false] at isFunction
  rcases isFunction with ⟨r, isBinding, rfl⟩ | (⟨r, isBinding, rfl⟩ | rfl | rfl) |
    (rfl | ⟨r, isBinding, rfl⟩) | rfl | rfl | rfl
  · exact r.unimplementedFunction_keywordFree (free r isBinding)
  · exact r.servicerMethod_keywordFree (free r isBinding)
  · exact handlerFunction_keywordFree fun _ _ => isKeyword_methodName _
  · exact addToServer_keywordFree
  · exact clientInit_keywordFree
  · exact r.clientMethod_keywordFree (free r isBinding)
  · exact partialInit_keywordFree free
  · exact handlerFunction_keywordFree fun _ _ => isKeyword_partialAttribute _
  · exact addToServer_keywordFree

end Methods

section Module

def ServiceClass.identifiers (k : ServiceClass) : List String :=
  k.name :: k.methods.flatMap (·.identifiers)

def adapterIdentifiers : List String :=
  adapterName :: adapterLocals ++ (adapterLines.flatMap fun line => Code.pathsOf line.toList).flatten

def Bound.identifiers (b : Bound) : List String :=
  serviceConstant b.service :: b.bindings.flatMap (·.constantIdentifiers) ++
    b.defaults.flatMap (·.identifiers) ++ b.classes.flatMap (·.identifiers)

def Module.identifiers (module : Module) : List String :=
  ["__future__", "annotations"] ++ module.imports.flatMap (·.identifiers) ++ adapterIdentifiers ++
    module.services.flatMap (·.identifiers)

theorem adapter_keywordFree : KeywordFree adapterIdentifiers := by
  have names : KeywordFree (adapterName :: adapterLocals) := by decide
  have paths : ∀ p ∈ adapterPaths, KeywordFree p := by decide
  refine Name.keywordFree_append.mpr ⟨names, fun id isName => ?_⟩
  obtain ⟨p, isPath, inPath⟩ := List.mem_flatten.mp isName
  obtain ⟨line, isLine, ofLine⟩ := List.mem_flatMap.mp isPath
  exact paths p (adapterLines_paths line isLine p ofLine) id inPath

theorem Bound.keywordFree_iff {mapper : Mapper} {s : Schema.Service} {b : Bound}
    (walk : List.Forall₂ (fun m r => Binding.of mapper s m = .ok r) s.methods b.bindings) :
    KeywordFree b.identifiers ↔
      ∀ m ∈ s.methods, KeywordFree m.input.path ∧ KeywordFree m.output.path := by
  constructor
  · intro free m isMethod
    obtain ⟨r, isBinding, found⟩ := walk.exists_right isMethod
    refine (Binding.constant_keywordFree_iff found).mp fun name isName => free name ?_
    simp only [identifiers, List.mem_cons, List.mem_append, List.mem_flatMap]
    exact .inl (.inl (.inr ⟨r, isBinding, isName⟩))
  · intro paths
    have found : ∀ r ∈ b.bindings, r.Free ∧ KeywordFree r.constantIdentifiers := by
      intro r isBinding
      obtain ⟨m, isMethod, found⟩ := walk.exists_left isBinding
      obtain ⟨input, output⟩ := paths m isMethod
      exact ⟨Binding.free_of_paths found input output,
        (Binding.constant_keywordFree_iff found).mpr ⟨input, output⟩⟩
    have functions := b.functions_keywordFree fun r isBinding => (found r isBinding).1
    rw [allFunctions, List.forall_mem_append, List.forall_mem_flatMap] at functions
    have names : ∀ k ∈ b.classes, isKeyword k.name = false := by
      simp [classes, servicerClass, clientClass, partialClass, isKeyword_serviceClass]
    simp only [identifiers, Name.keywordFree_append, Name.keywordFree_cons, Name.keywordFree_flatMap]
    refine ⟨⟨⟨isKeyword_serviceConstant, fun r isBinding => (found r isBinding).2⟩, functions.1⟩,
      fun k isClass => ?_⟩
    exact Name.keywordFree_cons.mpr
      ⟨names k isClass, Name.keywordFree_flatMap.mpr (functions.2 k isClass)⟩

theorem Module.keywordFree_iff {mapper : Mapper} {unit : FileUnit} {module : Module}
    (result : Module.ofUnit mapper unit = .ok module) : KeywordFree module.identifiers ↔
      Import.Clear mapper.scope.packagePrefix module.imports ∧
        ∀ ref ∈ unit.methodRefs, KeywordFree ref.path := by
  have imported := Import.keywordFree_imports_iff (Import.OfUnit.service result).known
  have future : isKeyword "__future__" = false ∧ isKeyword "annotations" = false := by decide
  have services : (∀ b ∈ module.services, KeywordFree b.identifiers) ↔
      ∀ ref ∈ unit.methodRefs, KeywordFree ref.path := by
    simp only [FileUnit.methodRefs, ← (Module.ofUnit_eq_ok result).services, List.forall_mem_flatMap,
      List.forall_mem_map, List.forall_mem_cons, List.not_mem_nil, false_imp_iff, implies_true, and_true]
    exact forall₂_congr fun b isBound => b.keywordFree_iff (Module.binding_of result isBound).2
  simp only [identifiers, Name.keywordFree_append, Name.keywordFree_cons, Name.keywordFree_nil, future,
    adapter_keywordFree, imported, true_and, and_true]
  rw [Name.keywordFree_flatMap, services]

end Module

/-- The modules of a unit have a keyword for an identifier exactly if it is a part of the path of a module
    that they import or of the host class of a type, or if a oneof adds nothing to the name of its message
    and that is a keyword. All other names are escaped, or taken as texts. -/
theorem modules_keywordFree_iff {options : OutputOptions} {resolver : Resolver} {unit : FileUnit}
    {values : Value.Module} {module : Module} (words : Value.OneofWords unit)
    (ofValues : Value.Module.IsOf options resolver unit values)
    (ofServices : Module.IsOf options resolver unit module) :
    (KeywordFree values.identifiers ↔
      Import.Clear options.packagePrefix values.imports ∧ Value.Clear unit) ∧
    (KeywordFree module.identifiers ↔
      Import.Clear options.packagePrefix module.imports ∧
        ∀ ref ∈ unit.methodRefs, KeywordFree ref.path) :=
  ⟨Value.Module.keywordFree_iff words ofValues, Module.keywordFree_iff ofServices⟩

section Examples

def law : Descriptor.File where
  name := "law/clause.proto"
  package := "law.v1"
  messages := [{
    name := "Clause"
    fields := [
      { name := "class", number := 1, type := .enum, typeName := ".law.v1.Kind" },
      { name := "from", number := 2, type := .message, typeName := ".law.v1.Clause" },
      { name := "None", number := 3, type := .scalar .string, oneofIndex := some 0 }]
    oneofs := ["is"] }]
  enums := [{ name := "Kind", values := [⟨"None", 0⟩, ⟨"pass", 1⟩] }]
  services := [{ name := "Court", methods := [
    { name := "Try", input := ".law.v1.Clause", output := ".law.v1.Clause" }] }]

theorem law_keywordFree : ∃ resolver, resolve [law] = .ok resolver ∧ ∃ unit ∈ resolver.files,
    Value.OneofWords unit ∧ ∃ values, Value.Module.IsOf {} resolver unit values ∧
    ∃ module, Module.IsOf {} resolver unit module ∧
      KeywordFree values.identifiers ∧ KeywordFree module.identifiers := by
  have made : ∃ resolver, resolve [law] = .ok resolver ∧ ∃ unit ∈ resolver.files,
      Value.OneofWords unit ∧ Value.Clear unit ∧ (∀ ref ∈ unit.methodRefs, KeywordFree ref.path) ∧
      (∃ values, Value.Module.ofUnit
        (Output.valueMapper {} (EnumIndex.ofUnits resolver.files) unit) unit = .ok values ∧
          KeywordFree (values.imports.flatMap (·.identifiers))) ∧
      ∃ module, Module.ofUnit
        (Output.serviceMapper {} (EnumIndex.ofUnits resolver.files) unit) unit = .ok module ∧
          KeywordFree (module.imports.flatMap (·.identifiers)) := by
    decide +kernel
  obtain ⟨resolver, resolved, unit, isUnit, words, clear, paths, ⟨values, ofValues, ofUnit⟩, module,
    ofServices, ofModule⟩ := made
  have imports := (Import.keywordFree_imports_iff (Import.OfUnit.value ofValues).known).mp ofUnit
  have imports' := (Import.keywordFree_imports_iff (Import.OfUnit.service ofServices).known).mp ofModule
  have isOf : Value.Module.IsOf {} resolver unit values := ofValues
  obtain ⟨free, free'⟩ := modules_keywordFree_iff words isOf ofServices
  exact ⟨resolver, resolved, unit, isUnit, words, values, isOf, module, ofServices,
    free.mpr ⟨imports, clear⟩, free'.mpr ⟨imports', paths⟩⟩

def Misnamed (packagePrefix : Option String) (files : List Descriptor.File) : Prop :=
  ({ packagePrefix } : Plugin.Config).validate = .ok { packagePrefix } ∧
  ∃ resolver, resolve files = .ok resolver ∧ ∃ unit ∈ resolver.files, Value.OneofWords unit ∧
    ∃ values, Value.Module.ofUnit (Output.valueMapper { packagePrefix } (EnumIndex.ofUnits resolver.files)
      unit) unit = .ok values ∧ ¬ KeywordFree values.identifiers

instance (packagePrefix : Option String) (files : List Descriptor.File) :
    Decidable (Misnamed packagePrefix files) := by
  unfold Misnamed
  infer_instance

def mood (file package name : String) : Descriptor.File where
  name := file
  package := package
  messages := [{ name := name }]

def diary (mood : String) : Descriptor.File where
  name := "diary.proto"
  dependencies := ["mood.proto"]
  messages := [{ name := "Diary", fields := [
    { name := "today", number := 1, type := .message, typeName := mood }] }]

/-- A oneof without letters, in a message whose path spells a keyword although no part of it is one. -/
def clause : Descriptor.File where
  name := "clause.proto"
  messages := [{ name := "cla", messages := [{
    name := "ss"
    fields := [{ name := "text", number := 1, type := .scalar .string, oneofIndex := some 0 }]
    oneofs := ["_"] }] }]

/-- A message, a directory, a package and a prefix that are called by keywords, and a oneof that adds
    nothing to the name of its message. -/
theorem keywords_misname :
    Misnamed none [mood "mood.proto" "" "None"] ∧
    Misnamed none [mood "lambda/mood.proto" "" "Mood"] ∧
    Misnamed none [mood "mood.proto" "lambda" "Mood", diary ".lambda.Mood"] ∧
    Misnamed (some "import") [mood "mood.proto" "" "Mood", diary ".Mood"] ∧
    Misnamed none [clause] := by
  decide +kernel

end Examples

end ProtoBindings.Service
