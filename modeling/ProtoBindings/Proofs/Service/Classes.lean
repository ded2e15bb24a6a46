import ProtoBindings.Proofs.Service.Bodies

namespace ProtoBindings

open Code (Arguments Expr Function Param Path Stmt attributesOf blockPaths)

namespace Code

def Param.default? : Param → Option (String × Expr)
  | .named name _ (some default) => some (name, default)
  | _ => none

def Stmt.kept? : Stmt → Option (String × Expr)
  | .assign (.attribute (.name "self") id) value => some (id, value)
  | _ => none

def Stmt.opened? : Stmt → Option (String × Expr × Expr)
  | .assignCall (.attribute (.name "self") id) callee (.positional path _) => some (id, callee, path)
  | _ => none

def Stmt.table? : Stmt → Option (List (String × Expr))
  | .retTable _ _ entries => some entries
  | _ => none

def Function.selfAttributes (f : Function) : List String := attributesOf "self" (blockPaths f.body)

end Code

namespace Service

open Schema (Method)

variable {s : Schema.Service} {b : Binding} {bindings : List Binding}

theorem underscore_ne_self (rest : String) : "_" ++ rest ≠ "self" := by
  intro same
  simpa using congrArg (·.toList.head?) same

theorem methodConstant_ne_self (m : Method) : methodConstant s m ≠ "self" := by
  rw [methodConstant, String.append_assoc, String.append_assoc]
  exact underscore_ne_self _

theorem Binding.servicerMethod_name (b : Binding) : b.servicerMethod.name = methodName b.method := by
  rw [servicerMethod]

theorem Binding.clientMethod_name (b : Binding) : b.clientMethod.name = methodName b.method := by
  rw [clientMethod]

section Attributes

theorem attributesOf_dotted {owner : String} (other : owner ≠ "self") (id : String) :
    attributesOf "self" (dotted owner id).paths = [] := by
  simp [attributesOf, Path.attributeOf?, dotted, Expr.paths, Expr.dotted?, other]

theorem Binding.attributesOf_constant (b : Binding) (id : String) :
    attributesOf "self" (dotted b.constant id).paths = [] :=
  attributesOf_dotted (methodConstant_ne_self b.method) id

theorem attributesOf_flatMap {α : Type} (xs : List α) (f : α → List Path) :
    attributesOf "self" (xs.flatMap f) = xs.flatMap fun x => attributesOf "self" (f x) :=
  List.filterMap_flatMap

theorem attributesOf_apply (callee : Expr) (arguments : List Expr) :
    attributesOf "self" (callee.apply arguments).paths =
      attributesOf "self" callee.paths ++ arguments.flatMap fun e => attributesOf "self" e.paths := by
  rw [Expr.apply, Expr.paths, Arguments.paths_ofList, Code.attributesOf_append, attributesOf_flatMap]

theorem attributesOf_name (id : String) : attributesOf "self" (Expr.name id).paths = [] := rfl

theorem addToServer_attributes : addToServer.selfAttributes = ["bind"] := by
  decide

theorem outgoing_attributes : attributesOf "self" b.outgoing.paths = [] := by
  rw [Binding.outgoing]
  split <;> simp [attributesOf_apply, attributesOf_dotted, b.attributesOf_constant, attributesOf_name]

theorem clientMethod_attributes : b.clientMethod.selfAttributes = [stubAttribute b.method] := by
  have call : attributesOf "self" b.remoteCall.paths = [stubAttribute b.method] := by
    rw [Binding.remoteCall_paths, Code.attributesOf_cons, Code.attributesOf_append, outgoing_attributes]
    rfl
  have incoming : attributesOf "self"
      ((dotted b.constant "response_to_idiom").apply [.name "response"]).paths = [] := by
    simp [attributesOf_apply, b.attributesOf_constant, attributesOf_name]
  rw [Function.selfAttributes, Binding.clientMethod, Binding.clientBody, Code.blockPaths_append,
    Code.attributesOf_append]
  have warning : attributesOf "self" (blockPaths
      (if b.method.deprecated then [b.deprecationWarning] else [])) = [] := by
    split <;> rfl
  rw [warning, List.nil_append]
  split <;> simp [blockPaths, Stmt.paths, Code.Head.paths, Expr.paths, Code.attributesOf_cons,
    Path.attributeOf?, call, incoming]

theorem openOnChannel_attributes : attributesOf "self" b.openOnChannel.paths = [stubAttribute b.method] := by
  simp [Binding.openOnChannel_paths, Code.attributesOf_cons, Path.attributeOf?, b.attributesOf_constant]

theorem clientInit_attributes :
    (clientInit bindings).selfAttributes = bindings.map (stubAttribute ·.method) := by
  rw [Function.selfAttributes, Code.blockPaths_eq_flatMap, clientInit, List.flatMap_map,
    attributesOf_flatMap, List.flatMap_congr fun b _ => openOnChannel_attributes, List.map_eq_flatMap]

theorem clientInit_sets : (clientInit bindings).body.filterMap (·.setsOnSelf?) =
    bindings.map (stubAttribute ·.method) := by
  rw [clientInit, List.filterMap_map, ← List.filterMap_eq_map]
  rfl

theorem handlerFunction_attributes (implementation : Binding → String) :
    (handlerFunction s implementation bindings).selfAttributes = bindings.map implementation := by
  have constant : attributesOf "self" (Expr.name (serviceConstant s)).paths = [] := rfl
  have entry (b : Binding) : attributesOf "self" (b.handlerEntry implementation).2.paths =
      [implementation b] := by
    rw [Binding.handlerEntry, attributesOf_apply]
    rfl
  rw [Function.selfAttributes, Code.blockPaths_eq_flatMap]
  simp only [handlerFunction, List.flatMap_cons, List.flatMap_nil, List.append_nil, Stmt.paths,
    Code.attributesOf_append, constant, List.flatMap_map, attributesOf_flatMap, entry]
  rw [List.map_eq_flatMap]
  rfl

theorem partialInit_attributes :
    (partialInit bindings).selfAttributes = bindings.map partialAttribute := by
  have assigned (b : Binding) : attributesOf "self" (Stmt.assign (.attribute selfName (partialAttribute b))
      (.name (methodName b.method))).paths = [partialAttribute b] := rfl
  rw [Function.selfAttributes, Code.blockPaths_eq_flatMap, partialInit, List.flatMap_map,
    attributesOf_flatMap, List.flatMap_congr fun b _ => assigned b, List.map_eq_flatMap]

section Owned

variable {k : ServiceClass} {f : Function}

theorem ServiceClass.method_attribute (isMethod : f ∈ k.methods) : f.name ∈ k.attributes :=
  List.mem_append_left _ (List.mem_map_of_mem isMethod)

theorem ServiceClass.kept_attribute (isMethod : f ∈ k.methods) (named : f.name = "__init__") :
    f.body.filterMap (·.setsOnSelf?) ⊆ k.attributes := by
  refine List.subset_append_of_subset_right _ fun id isSet => ?_
  exact List.mem_flatMap.mpr ⟨f, List.mem_filter.mpr ⟨isMethod, beq_iff_eq.mpr named⟩, isSet⟩

theorem ServiceClass.owns (each : ∀ f ∈ k.methods, f.selfAttributes ⊆ k.attributes) :
    k.OwnsAttributes := fun f isMethod _ isId => List.mem_map_of_mem (each f isMethod isId)

end Owned

theorem servicerClass_owns : (servicerClass s bindings).OwnsAttributes := by
  have handler : handlerFunction s (methodName ·.method) bindings ∈
      (servicerClass s bindings).methods := by simp [servicerClass]
  refine ServiceClass.owns ?_
  simp only [servicerClass, List.forall_mem_append, List.forall_mem_map, List.forall_mem_cons]
  refine ⟨fun b _ => List.nil_subset _, ?_, ?_, List.forall_mem_nil _⟩
  · rw [handlerFunction_attributes]
    intro id isId
    obtain ⟨b, isBinding, rfl⟩ := List.mem_map.mp isId
    have isMethod : b.servicerMethod ∈ (servicerClass s bindings).methods :=
      List.mem_append_left _ (List.mem_map_of_mem isBinding)
    rw [← b.servicerMethod_name]
    exact ServiceClass.method_attribute isMethod
  · rw [addToServer_attributes, List.cons_subset]
    exact ⟨ServiceClass.method_attribute handler, List.nil_subset _⟩

theorem clientClass_owns : (clientClass s bindings).OwnsAttributes := by
  have kept : bindings.map (stubAttribute ·.method) ⊆ (clientClass s bindings).attributes := by
    rw [← clientInit_sets]
    exact ServiceClass.kept_attribute List.mem_cons_self rfl
  refine ServiceClass.owns ?_
  simp only [clientClass, List.forall_mem_cons, List.forall_mem_map]
  refine ⟨by rwa [clientInit_attributes], fun b isBinding => ?_⟩
  rw [clientMethod_attributes, List.cons_subset]
  exact ⟨kept (List.mem_map.mpr ⟨b, isBinding, rfl⟩), List.nil_subset _⟩

theorem partialClass_owns : (partialClass s bindings).OwnsAttributes := by
  have handler : handlerFunction s partialAttribute bindings ∈ (partialClass s bindings).methods := by
    simp [partialClass]
  have kept : bindings.map partialAttribute ⊆ (partialClass s bindings).attributes := by
    have sets : (partialInit bindings).body.filterMap (·.setsOnSelf?) =
        bindings.map partialAttribute := by
      rw [partialInit, List.filterMap_map, ← List.filterMap_eq_map]
      rfl
    rw [← sets]
    exact ServiceClass.kept_attribute List.mem_cons_self rfl
  refine ServiceClass.owns ?_
  simp only [partialClass, List.forall_mem_cons]
  refine ⟨by rwa [partialInit_attributes], by rwa [handlerFunction_attributes], ?_, List.forall_mem_nil _⟩
  rw [addToServer_attributes, List.cons_subset]
  exact ⟨ServiceClass.method_attribute handler, List.nil_subset _⟩

theorem classes_own (b : Bound) : ∀ k ∈ b.classes, k.OwnsAttributes := by
  simp only [Bound.classes, List.forall_mem_cons]
  exact ⟨servicerClass_owns, clientClass_owns, partialClass_owns, List.forall_mem_nil _⟩

end Attributes

/-- The entry of a method in a table of handlers: made of its constant and an attribute of `self`. -/
def handlerOf (s : Schema.Service) (implementation : Method → String) (m : Method) : String × Expr :=
  (m.name, (Expr.name adapterName).apply
    [.name (methodConstant s m), .attribute selfName (implementation m)])

def ServiceClass.tables (k : ServiceClass) : List (List (String × Expr)) :=
  k.methods.flatMap (·.body.filterMap (·.table?))

/-- A base class that serves each method by the method of its name. -/
structure ServicerWired (s : Schema.Service) (k : ServiceClass) : Prop where
  name : k.name = s.name ++ "Servicer"
  methods : k.methods.map (·.name) = s.methods.map methodName ++ ["bind", "add_to_server"]
  handlers : k.tables = [s.methods.map (handlerOf s methodName)]

/-- A client that opens each method once, by the path in its constant, and calls what it opened. -/
structure StubWired (s : Schema.Service) (k : ServiceClass) : Prop where
  name : k.name = s.name ++ "Stub"
  methods : k.methods.map (·.name) = "__init__" :: s.methods.map methodName
  opened : k.methods.flatMap (·.body.filterMap (·.opened?)) = s.methods.map fun m =>
    (stubAttribute m, dotted "channel" m.shape.channelFactory, dotted (methodConstant s m) "path")
  called : k.methods.map (·.selfAttributes) =
    s.methods.map stubAttribute :: s.methods.map fun m => [stubAttribute m]

/-- An implementation that serves each method by what it was given for it, or by the default. -/
structure PartialWired (s : Schema.Service) (k : ServiceClass) : Prop where
  name : k.name = s.name ++ "Partial"
  methods : k.methods.map (·.name) = ["__init__", "bind", "add_to_server"]
  defaults : k.methods.flatMap (·.params.filterMap (·.default?)) =
    s.methods.map fun m => (methodName m, .name (unimplementedName s m))
  kept : k.methods.flatMap (·.body.filterMap (·.kept?)) =
    s.methods.map fun m => ("_" ++ methodName m, .name (methodName m))
  handlers : k.tables = [s.methods.map (handlerOf s fun m => "_" ++ methodName m)]

/-- What a module has for a service, all of it for each method and in the order of the methods. -/
structure Bound.Wired (b : Bound) (s : Schema.Service) : Prop where
  constants : b.constantItems.map (·.defines) =
    [serviceConstant s] :: s.methods.map fun m => [methodConstant s m]
  defaults : b.defaults.map (·.name) = s.methods.map (unimplementedName s)
  classes : ∃ servicer stub implementation, b.classes = [servicer, stub, implementation] ∧
    ServicerWired s servicer ∧ StubWired s stub ∧ PartialWired s implementation

section Wired

variable {unit : Schema.FileUnit} {module : Module} (built : ModuleBuilt unit module) {b : Bound}
  (isBound : b ∈ module.services)
include built isBound

theorem ModuleBuilt.servicer_wired : ServicerWired b.service (servicerClass b.service b.bindings) where
  name := rfl
  methods := by
    rw [← built.bound_map isBound fun _ => methodName, servicerClass, List.map_append, List.map_map,
      List.map_congr_left fun r _ => r.servicerMethod_name]
    rfl
  handlers := by
    have none : b.bindings.flatMap (fun r => r.servicerMethod.body.filterMap (·.table?)) = [] :=
      List.flatMap_eq_nil_iff.mpr fun _ _ => rfl
    rw [← built.bound_map isBound fun s => handlerOf s methodName, ServiceClass.tables, servicerClass,
      List.flatMap_append, List.flatMap_map, none]
    rfl

theorem ModuleBuilt.stub_wired : StubWired b.service (clientClass b.service b.bindings) where
  name := rfl
  methods := by
    rw [← built.bound_map isBound fun _ => methodName, clientClass, List.map_cons, List.map_map,
      List.map_congr_left fun r _ => r.clientMethod_name]
    rfl
  opened := by
    have none : b.bindings.flatMap (fun r => r.clientMethod.body.filterMap (·.opened?)) = [] := by
      refine List.flatMap_eq_nil_iff.mpr fun r _ => ?_
      rw [Binding.clientMethod, Binding.clientBody]
      split <;> split <;> rfl
    rw [← built.bound_map isBound fun s m => (stubAttribute m,
      dotted "channel" m.shape.channelFactory, dotted (methodConstant s m) "path"), clientClass,
      List.flatMap_cons, List.flatMap_map, none, List.append_nil, clientInit, List.filterMap_map,
      ← List.filterMap_eq_map]
    rfl
  called := by
    rw [← built.bound_map isBound fun _ => stubAttribute,
      ← built.bound_map isBound fun _ m => [stubAttribute m], clientClass, List.map_cons, List.map_map,
      clientInit_attributes]
    exact congrArg _ (List.map_congr_left fun r _ => clientMethod_attributes)

theorem ModuleBuilt.partial_wired : PartialWired b.service (partialClass b.service b.bindings) where
  name := rfl
  methods := rfl
  defaults := by
    have own : (partialInit b.bindings).params.filterMap (·.default?) =
        b.bindings.map fun r => (methodName r.method, .name r.unimplemented) := by
      rw [partialInit, List.filterMap_append, List.filterMap_map, ← List.filterMap_eq_map]
      rfl
    rw [← built.bound_map isBound fun s m => (methodName m, Expr.name (unimplementedName s m)),
      partialClass, List.flatMap_cons, own]
    exact List.append_nil _
  kept := by
    have own : (partialInit b.bindings).body.filterMap (·.kept?) =
        b.bindings.map fun r => (partialAttribute r, .name (methodName r.method)) := by
      rw [partialInit, List.filterMap_map, ← List.filterMap_eq_map]
      rfl
    rw [← built.bound_map isBound fun _ m => ("_" ++ methodName m, Expr.name (methodName m)),
      partialClass, List.flatMap_cons, own]
    exact List.append_nil _
  handlers := by
    have none : (partialInit b.bindings).body.filterMap (·.table?) = [] := by
      rw [partialInit, List.filterMap_map]
      exact List.filterMap_eq_nil_iff.mpr fun _ _ => rfl
    rw [← built.bound_map isBound fun s => handlerOf s fun m => "_" ++ methodName m]
    simp only [ServiceClass.tables, partialClass, List.flatMap_cons, none, List.nil_append]
    rfl

theorem ModuleBuilt.wired : b.Wired b.service where
  constants := by
    rw [← built.bound_map isBound fun s m => [methodConstant s m], Bound.constantItems, List.map_cons,
      List.map_map]
    rfl
  defaults := by
    rw [← built.bound_map isBound unimplementedName, Bound.defaults, List.map_map]
    rfl
  classes := ⟨_, _, _, rfl, built.servicer_wired isBound, built.stub_wired isBound,
    built.partial_wired isBound⟩

end Wired

end Service

end ProtoBindings
