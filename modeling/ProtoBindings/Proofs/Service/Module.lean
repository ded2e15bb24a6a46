import ProtoBindings.Proofs.Service.Classes

namespace ProtoBindings.Service

open Code (Function Path Shown inClass nameInClass)
open Schema (FileUnit TypeRef)
open Value (Context Item)

/-- A module whose names all resolve: what its definitions evaluate by the time it is evaluated, what else
    they mention in the end, and what its classes take of their instances. -/
structure Module.SelfContained (c : Context) (module : Module) : Prop where
  runs : Context.RunsBy Resolves c module.items
  resolves : ∀ item ∈ module.items, ∀ p ∈ item.deferred, Resolves (c.extend module.items) p
  attributes : ∀ b ∈ module.services, ∀ k ∈ b.classes, k.OwnsAttributes

section Defines

variable {c : Context} {module : Module} {item : Item} (isItem : item ∈ module.items)
include isItem

theorem Module.item_defines : item.defines ⊆ (c.extend module.items).defined :=
  fun _ member => List.mem_append_right _ (List.mem_flatMap.mpr ⟨item, isItem, member⟩)

theorem Module.item_members : item.members ⊆ (c.extend module.items).members :=
  fun _ member => List.mem_append_right _ (List.mem_flatMap.mpr ⟨item, isItem, member⟩)

end Defines

section Items

variable {module : Module} {b : Bound} (isBound : b ∈ module.services)

theorem Module.adapterItem_mem : adapterItem ∈ module.items :=
  List.mem_append_left _ (List.mem_append_right _ (List.mem_singleton_self _))

include isBound

theorem Module.constantItem_mem {item : Item} (isItem : item ∈ b.constantItems) : item ∈ module.items :=
  List.mem_append_left _ (List.mem_append_left _ (List.mem_flatMap.mpr ⟨b, isBound, isItem⟩))

theorem Module.codeItem_mem {item : Item} (isItem : item ∈ b.codeItems) : item ∈ module.items :=
  List.mem_append_right _ (List.mem_flatMap.mpr ⟨b, isBound, isItem⟩)

end Items

section Evaluated

variable {s : Schema.Service} {bindings : List Binding} {b : Binding}

theorem clientMethod_evaluated : b.clientMethod.evaluated = [] := by
  have request : b.clientRequestParam.evaluated = [] := by
    rw [Binding.clientRequestParam]
    split
    · rfl
    · split <;> rfl
  simp only [Function.evaluated, Binding.clientMethod, List.flatMap_cons, request]
  rfl

theorem partialInit_evaluated : (partialInit bindings).evaluated = bindings.map ([·.unimplemented]) := by
  rw [Function.evaluated, partialInit, List.flatMap_append, List.flatMap_map, List.map_eq_flatMap]
  rfl

theorem servicerClass_evaluated : (servicerClass s bindings).item.evaluated = [] := by
  have none : bindings.flatMap (·.servicerMethod.evaluated) = [] :=
    List.flatMap_eq_nil_iff.mpr fun _ _ => rfl
  simp only [ServiceClass.item, servicerClass, List.flatMap_append, List.flatMap_map, none]
  rfl

theorem clientClass_evaluated : (clientClass s bindings).item.evaluated = [] := by
  have none : bindings.flatMap (·.clientMethod.evaluated) = [] :=
    List.flatMap_eq_nil_iff.mpr fun _ _ => clientMethod_evaluated
  simp only [ServiceClass.item, clientClass, List.flatMap_cons, List.flatMap_map, none]
  rfl

theorem partialClass_evaluated : (partialClass s bindings).item.evaluated =
    bindings.map fun b => [nameInClass (s.name ++ "Partial") b.unimplemented] := by
  simp only [ServiceClass.item, partialClass, List.flatMap_cons, partialInit_evaluated, inClass]
  rw [List.map_append, List.map_map]
  exact List.append_nil _

end Evaluated

section SelfContained

variable {mapper : Mapper} {unit : FileUnit} {module : Module} {c : Context}
  (result : Module.ofUnit mapper unit = .ok module) (imported : c.imports = module.imports)

section Imports

variable {b : Bound} (isBound : b ∈ module.services) {r : Binding} (isBinding : r ∈ b.bindings)
include imported isBound

theorem bound_imported : b.imports ⊆ c.imports := by
  intro i member
  rw [imported]
  exact List.mem_append_right _ (List.mem_flatMap.mpr ⟨b, isBound, member⟩)

include isBinding

theorem constant_imported : r.constantImports ⊆ c.imports := by
  intro i member
  refine bound_imported imported isBound (List.mem_append_left _ (List.mem_append_left _ ?_))
  exact List.mem_flatMap.mpr ⟨r, isBinding, member⟩

theorem class_imported {i : Import} (member : i ∈ r.signatureImports ∨ i ∈ r.clientMethod.imports ∨
    i ∈ r.implementationImports) : i ∈ c.imports := by
  refine bound_imported imported isBound (List.mem_append_right _ (Bound.mem_classImports.mpr ?_))
  exact member.imp (⟨r, isBinding, ·⟩) (Or.imp (⟨r, isBinding, ·⟩) (⟨r, isBinding, ·⟩))

end Imports

include imported in
theorem equipped_of_adapter (defined : adapterName ∈ c.defined) : Equipped c := by
  have ofAdapter {i : Import} (member : i ∈ Module.adapterImports) : i ∈ c.imports := by
    rw [imported]
    exact List.mem_append_left _ member
  exact ⟨ofAdapter (by decide), ofAdapter (by decide), ofAdapter (by decide), defined⟩

variable (served : ∀ ref ∈ unit.methodRefs, c.Serves mapper (.message ref))
include result imported served

theorem sides_closed {b : Bound} (isBound : b ∈ module.services) {r : Binding}
    (isBinding : r ∈ b.bindings) : r.request.Closed c ∧ r.response.Closed c := by
  obtain ⟨isService, methods⟩ := Module.binding_of result isBound
  obtain ⟨m, isMethod, made⟩ := methods.exists_left isBinding
  obtain ⟨input, output⟩ := FileUnit.mem_methodRefs isService isMethod
  have ofConstant := constant_imported imported isBound isBinding
  have ofSignature : r.signatureImports ⊆ c.imports := fun i member =>
    class_imported imported isBound isBinding (.inl member)
  simp only [Binding.of, Result.bind_eq_ok, Result.pure_eq_ok] at made
  obtain ⟨request, isRequest, response, isResponse, rfl⟩ := made
  simp only [Binding.constantImports, Binding.signatureImports, List.append_subset] at ofConstant ofSignature
  obtain ⟨⟨⟨requestConverter, requestHost⟩, responseConverter⟩, responseHost⟩ := ofConstant
  obtain ⟨⟨requestType, responseType⟩, _⟩ := ofSignature
  exact ⟨Side.of_closed isRequest (served _ input) requestHost requestType requestConverter,
    Side.of_closed isResponse (served _ output) responseHost responseType responseConverter⟩

variable (plain : ∀ s ∈ unit.services, Name.StartsPlain s.name.toList)
include plain

theorem known_binding {b : Bound} (isBound : b ∈ module.services) {r : Binding}
    (isBinding : r ∈ b.bindings) : r.Known (c.extend module.items) := by
  obtain ⟨request, response⟩ := sides_closed result imported served isBound isBinding
  obtain ⟨isService, _⟩ := Module.binding_of result isBound
  have isItem := Module.constantItem_mem isBound
    (List.mem_cons_of_mem b.serviceItem (List.mem_map_of_mem (f := (·.constantItem)) isBinding))
  have owner := (Module.ofUnit_eq_ok result).owner b isBound r isBinding
  constructor
  · exact Module.item_defines isItem (List.mem_singleton_self _)
  · exact fun id listed => Module.item_members isItem (List.mem_map_of_mem listed)
  · exact methodConstant_shown (owner ▸ plain b.service isService)
  · exact request.mono (.extend c _)
  · exact response.mono (.extend c _)

theorem classes_closed {b : Bound} (isBound : b ∈ module.services) :
    ∀ k ∈ b.classes, ∀ f ∈ k.methods, Closed (c.extend module.items) f := by
  have equipped : Equipped (c.extend module.items) := equipped_of_adapter (c := c.extend module.items)
    imported (Module.item_defines Module.adapterItem_mem (List.mem_singleton_self _))
  have known {r : Binding} (isBinding : r ∈ b.bindings) :=
    known_binding result imported served plain isBound isBinding
  have ofClass {r : Binding} (isBinding : r ∈ b.bindings) {i : Import} :=
    @class_imported module c imported b isBound r isBinding i
  obtain ⟨isService, _⟩ := Module.binding_of result isBound
  have isItem : b.serviceItem ∈ module.items := Module.constantItem_mem isBound List.mem_cons_self
  have handler (implementation : Binding → String) := handlerFunction_closed equipped
    (fun r isBinding => known (r := r) isBinding) (Module.item_defines isItem (List.mem_singleton_self _))
    (serviceConstant_shown (plain b.service isService)) implementation
  have added := addToServer_closed equipped
  simp only [Bound.classes, List.forall_mem_cons]
  refine ⟨?_, ?_, ?_, List.forall_mem_nil _⟩
  · simp only [servicerClass, List.forall_mem_append, List.forall_mem_map, List.forall_mem_cons]
    refine ⟨fun r isBinding => ?_, handler _, added, List.forall_mem_nil _⟩
    exact r.servicerMethod_closed equipped (known isBinding) fun i member => ofClass isBinding (.inl member)
  · simp only [clientClass, List.forall_mem_cons, List.forall_mem_map]
    refine ⟨clientInit_closed equipped fun r isBinding => known isBinding, fun r isBinding => ?_⟩
    exact r.clientMethod_closed equipped (known isBinding) fun i member =>
      ofClass isBinding (.inr (.inl member))
  · simp only [partialClass, List.forall_mem_cons]
    refine ⟨partialInit_closed (fun r isBinding => known isBinding) fun r isBinding i member => ?_,
      handler _, added, List.forall_mem_nil _⟩
    exact ofClass isBinding (.inr (.inr member))

/-- What is evaluated when the module is imported: constants ask for that of their service, classes for the
    default functions in front of them. -/
theorem module_runs : Context.RunsBy Resolves c module.items := by
  have ofRpc : .rpcSupport ∈ c.imports := by
    rw [imported]
    exact List.mem_append_left _ (by decide)
  rw [Module.items, List.flatMap_def, List.flatMap_def, Context.runsBy_append, Context.runsBy_append]
  refine ⟨⟨?_, List.forall_mem_nil _, True.intro⟩, ?_⟩
  · refine Context.runsBy_flatten grows_resolves fun chunk member => ?_
    obtain ⟨b, isBound, rfl⟩ := List.mem_map.mp member
    refine ⟨List.forall_mem_nil _, Context.runsBy_of_forall grows_resolves fun item member => ?_⟩
    obtain ⟨r, isBinding, rfl⟩ := List.mem_map.mp member
    obtain ⟨request, response⟩ := sides_closed result imported served isBound isBinding
    have owner := (Module.ofUnit_eq_ok result).owner b isBound r isBinding
    have defined : serviceConstant r.service ∈ (c.extend [b.serviceItem]).defined := by
      rw [owner]
      exact List.mem_append_right _ (List.mem_singleton_self _)
    exact r.constantItem_resolves ofRpc defined (request.mono (.extend c _)) (response.mono (.extend c _))
  · refine Context.runsBy_flatten grows_resolves fun chunk member => ?_
    obtain ⟨b, isBound, rfl⟩ := List.mem_map.mp member
    obtain ⟨isService, _⟩ := Module.binding_of result isBound
    rw [Bound.codeItems, Context.runsBy_append]
    constructor
    · refine Context.runsBy_of_forall grows_resolves fun item member => ?_
      simp only [Bound.defaults, List.map_map, List.mem_map, Function.comp_apply] at member
      obtain ⟨r, _, rfl⟩ := member
      exact List.forall_mem_nil _
    · refine Context.runsBy_of_forall grows_resolves fun item member => ?_
      obtain ⟨k, isClass, rfl⟩ := List.mem_map.mp member
      simp only [Bound.classes, List.mem_cons, List.not_mem_nil, or_false] at isClass
      rcases isClass with rfl | rfl | rfl
      · simp [servicerClass_evaluated]
      · simp [clientClass_evaluated]
      · rw [partialClass_evaluated, List.forall_mem_map]
        intro r isBinding
        have owner := (Module.ofUnit_eq_ok result).owner b isBound r isBinding
        have shown : Shown r.unimplemented := by
          rw [Binding.unimplemented, owner]
          exact unimplementedName_shown.mpr (plain b.service isService)
        rw [Code.nameInClass_of_shown shown]
        refine resolves_own (List.mem_append_right _ (List.mem_flatMap.mpr ?_))
        exact ⟨_, List.mem_map_of_mem (List.mem_map_of_mem isBinding), List.mem_singleton_self _⟩

theorem module_resolves :
    ∀ item ∈ module.items, ∀ p ∈ item.deferred, Resolves (c.extend module.items) p := by
  have equipped : Equipped (c.extend module.items) := equipped_of_adapter (c := c.extend module.items)
    imported (Module.item_defines Module.adapterItem_mem (List.mem_singleton_self _))
  intro item member
  simp only [Module.items, List.mem_append, List.mem_singleton] at member
  rcases member with (member | rfl) | member
  · obtain ⟨b, _, member⟩ := List.mem_flatMap.mp member
    rcases List.mem_cons.mp member with rfl | member
    · exact List.forall_mem_nil _
    · obtain ⟨r, _, rfl⟩ := List.mem_map.mp member
      exact List.forall_mem_nil _
  · refine adapterItem_resolves equipped ?_
    change _ ∈ c.imports
    rw [imported]
    exact List.mem_append_left _ (by decide)
  · obtain ⟨b, isBound, member⟩ := List.mem_flatMap.mp member
    rcases List.mem_append.mp member with isDefault | ofClass
    · simp only [Bound.defaults, List.map_map, List.mem_map, Function.comp_apply] at isDefault
      obtain ⟨r, isBinding, rfl⟩ := isDefault
      have known := known_binding result imported served plain isBound isBinding
      exact r.unimplementedFunction_resolves equipped known fun i member =>
        class_imported imported isBound isBinding (.inl member)
    · obtain ⟨k, isClass, rfl⟩ := List.mem_map.mp ofClass
      exact k.item_resolves (classes_closed result imported served plain isBound k isClass)

theorem selfContained_of_plain : module.SelfContained c :=
  ⟨module_runs result imported served plain, module_resolves result imported served plain,
    fun b _ => classes_own b⟩

end SelfContained

end ProtoBindings.Service
