import ProtoBindings.Proofs.Service.Members
import ProtoBindings.Proofs.Value.Signatures

namespace ProtoBindings.Service

open Code (Function Param)
open Name (IsWord snakeCase)
open Schema (FileUnit)

def Bound.allFunctions (b : Bound) : List Function := b.defaults ++ b.classes.flatMap (·.methods)

def Module.allFunctions (m : Module) : List Function := m.services.flatMap (·.allFunctions)

structure ParametersApart (s : Schema.Service) : Prop where
  nonempty : s.methods ≠ []
  methods : MethodsApart s
  notSelf : "self" ∉ snakeNames s

instance (s : Schema.Service) : Decidable (ParametersApart s) :=
  decidable_of_iff (s.methods.isEmpty = false ∧ MethodsApart s ∧ "self" ∉ snakeNames s)
    ⟨fun ⟨nonempty, methods, notSelf⟩ => ⟨by simpa using nonempty, methods, notSelf⟩,
      fun ⟨nonempty, methods, notSelf⟩ => ⟨by simpa using nonempty, methods, notSelf⟩⟩

section Fixed

variable {s : Schema.Service} {bindings : List Binding} (b : Binding)

theorem servicerMethod_legal : b.servicerMethod.toText.Legal := by
  by_cases streams : b.shape.streamsRequests = true
  · refine Function.legal_of_names ["self", "requests"] ?_ (by decide) (by decide) rfl
    simp [Binding.servicerMethod, Binding.requestParam, Param.bound, Param.self, Param.typed, streams]
  · refine Function.legal_of_names ["self", "request"] ?_ (by decide) (by decide) rfl
    simp [Binding.servicerMethod, Binding.requestParam, Param.bound, Param.self, Param.typed, streams]

theorem unimplementedFunction_legal : b.unimplementedFunction.toText.Legal := by
  by_cases streams : b.shape.streamsRequests = true
  · refine Function.legal_of_names ["requests"] ?_ (by decide) (by decide) rfl
    simp [Binding.unimplementedFunction, Binding.requestParam, Param.bound, Param.typed, streams]
  · refine Function.legal_of_names ["request"] ?_ (by decide) (by decide) rfl
    simp [Binding.unimplementedFunction, Binding.requestParam, Param.bound, Param.typed, streams]

theorem clientRequestParam_bound :
    b.clientRequestParam.bound = ["requests"] ∨ b.clientRequestParam.bound = ["request"] := by
  rw [Binding.clientRequestParam]
  split
  · exact .inl rfl
  · split <;> exact .inr rfl

theorem clientMethod_legal : b.clientMethod.toText.Legal := by
  have names : b.clientMethod.params.flatMap (·.bound) =
      "self" :: b.clientRequestParam.bound ++ ["timeout", "metadata"] := by
    simp [Binding.clientMethod, Param.bound, Param.self]
  rcases clientRequestParam_bound b with bound | bound
  · rw [bound] at names
    exact Function.legal_of_names _ names (by decide) (by decide) rfl
  · rw [bound] at names
    exact Function.legal_of_names _ names (by decide) (by decide) rfl

theorem clientInit_legal : (clientInit bindings).toText.Legal :=
  Function.legal_of_names ["self", "channel"] rfl (by decide) (by decide) rfl

theorem handlerFunction_legal (implementation : Binding → String) :
    (handlerFunction s implementation bindings).toText.Legal :=
  Function.legal_of_names ["self"] rfl (by decide) (by decide) rfl

theorem addToServer_legal : addToServer.toText.Legal :=
  Function.legal_of_names ["self", "server"] rfl (by decide) (by decide) rfl

end Fixed

section Partial

theorem partialInit_legal_iff {bindings : List Binding}
    (words : ∀ b ∈ bindings, IsWord b.method.name) : (partialInit bindings).toText.Legal ↔
      bindings ≠ [] ∧ ("self" :: bindings.map (methodName ·.method)).Nodup := by
  have bound : (partialInit bindings).params.flatMap (·.bound) =
      "self" :: bindings.map (methodName ·.method) := by
    rw [List.map_eq_flatMap]
    exact congrArg _ (List.flatMap_map ..)
  have isWord : ∀ name ∈ (partialInit bindings).params.flatMap (·.bound), IsWord name := by
    rw [bound, List.forall_mem_cons, List.forall_mem_map]
    exact ⟨by decide, fun b isBinding => isWord_methodName (words b isBinding)⟩
  have last : (partialInit bindings).params.getLast? ≠ some .byNameOnly ↔ bindings ≠ [] := by
    rw [partialInit, List.getLast?_append, List.getLast?_map]
    cases isLast : bindings.getLast? with
    | none => simp [List.getLast?_eq_none_iff.mp isLast]
    | some b => simp [List.ne_nil_of_mem (List.mem_of_getLast? isLast)]
  rw [Function.legal_iff isWord, bound, last, and_comm]

theorem self_mem_methodNames {s : Schema.Service} :
    "self" ∈ s.methods.map methodName ↔ "self" ∈ snakeNames s := by
  have starts : ∀ known ∈ classMembers ++ (Name.keywords ++ Name.classBodyNames),
      ¬ "self".toList <+: (known ++ "_").toList := by decide +kernel
  have kept (name : String) : Name.suffixed isTaken name = "self" ++ "" ↔ name = "self" ++ "" :=
    Name.suffixed_eq_append_iff fun known taken => starts known (mem_of_isTaken taken)
  simp only [String.append_empty] at kept
  simp only [map_methodName, List.mem_map, kept, exists_eq_right]

end Partial

section Module

variable {unit : FileUnit} {module : Module} (built : ModuleBuilt unit module) (words : IsWords unit)

theorem Bound.legal_of_other {b : Bound} {f : Function} (isFunction : f ∈ b.allFunctions)
    (other : f ≠ partialInit b.bindings) : f.toText.Legal := by
  simp only [allFunctions, defaults, classes, servicerClass, clientClass, partialClass,
    List.flatMap_cons, List.flatMap_nil, List.append_nil, List.mem_append, List.mem_cons, List.mem_map,
    List.not_mem_nil, or_false] at isFunction
  rcases isFunction with ⟨r, _, rfl⟩ | (⟨r, _, rfl⟩ | rfl | rfl) | (rfl | ⟨r, _, rfl⟩) | rfl | rfl | rfl
  · exact unimplementedFunction_legal r
  · exact servicerMethod_legal r
  · exact handlerFunction_legal _
  · exact addToServer_legal
  · exact clientInit_legal
  · exact clientMethod_legal r
  · exact absurd rfl other
  · exact handlerFunction_legal _
  · exact addToServer_legal

theorem Bound.partialInit_mem (b : Bound) : partialInit b.bindings ∈ b.allFunctions := by
  simp [allFunctions, classes, partialClass]

include built words in
theorem ModuleBuilt.partialInit_legal_iff {b : Bound} (isBound : b ∈ module.services) :
    (partialInit b.bindings).toText.Legal ↔ ParametersApart b.service := by
  have isService : b.service ∈ unit.services := by
    rw [← built.services]
    exact List.mem_map_of_mem isBound
  have isWord : ∀ r ∈ b.bindings, IsWord r.method.name := by
    intro r isBinding
    refine words.methods b.service isService r.method ?_
    rw [← built.methods b isBound]
    exact List.mem_map_of_mem isBinding
  have names : b.bindings.map (methodName ·.method) = b.service.methods.map methodName :=
    built.bound_map isBound fun _ => methodName
  have nonempty : b.bindings ≠ [] ↔ b.service.methods ≠ [] := by
    rw [← built.methods b isBound, ne_eq, ne_eq, List.map_eq_nil_iff]
  rw [Service.partialInit_legal_iff isWord, names, nonempty, List.nodup_cons, self_mem_methodNames,
    methodNames_nodup_iff]
  exact ⟨fun ⟨nonempty, notSelf, methods⟩ => ⟨nonempty, methods, notSelf⟩,
    fun ⟨nonempty, methods, notSelf⟩ => ⟨nonempty, notSelf, methods⟩⟩

end Module

/-- The functions of a value module always have legal parameters. Those of a service module have exactly
    if each service has methods, and these have distinct names other than `self`: only the constructor of
    an implementation can be at fault. -/
theorem signatures_legal_iff {mapper serviceMapper : Mapper} {unit : FileUnit}
    {values : Value.Module} {module : Module} (words : IsWords unit)
    (ofValues : Value.Module.ofUnit mapper unit = .ok values)
    (ofServices : Module.ofUnit serviceMapper unit = .ok module) :
    (∀ f ∈ values.allFunctions, f.toText.Legal) ∧
    ((∀ f ∈ module.allFunctions, f.toText.Legal) ↔ ∀ s ∈ unit.services, ParametersApart s) ∧
    ∀ f ∈ module.allFunctions, ¬ f.toText.Legal →
      ∃ b ∈ module.services, f = partialInit b.bindings ∧ ¬ ParametersApart b.service := by
  have built := Module.ofUnit_eq_ok ofServices
  have illegal : ∀ f ∈ module.allFunctions, ¬ f.toText.Legal →
      ∃ b ∈ module.services, f = partialInit b.bindings ∧ ¬ ParametersApart b.service := by
    intro f isFunction fault
    obtain ⟨b, isBound, ofBound⟩ := List.mem_flatMap.mp isFunction
    have isInit : f = partialInit b.bindings := by
      by_contra other
      exact fault (Bound.legal_of_other ofBound other)
    rw [isInit, built.partialInit_legal_iff words isBound] at fault
    exact ⟨b, isBound, isInit, fault⟩
  refine ⟨Value.Module.signatures_legal ofValues, ?_, illegal⟩
  rw [← built.services, List.forall_mem_map]
  constructor
  · intro legal b isBound
    rw [← built.partialInit_legal_iff words isBound]
    exact legal _ (List.mem_flatMap.mpr ⟨b, isBound, b.partialInit_mem⟩)
  · intro apart f isFunction
    by_contra fault
    obtain ⟨b, isBound, _, clash⟩ := illegal f isFunction fault
    exact clash (apart b isBound)

section Examples

def parcel : Schema.Message where
  name := "Parcel"
  fullName := "Parcel"
  ref := { fullName := "Parcel", file := "shop.proto", package := "", path := ["Parcel"] }
  fields := [.ordinary
    { name := "note", number := 1, element := .scalar .string, isExplicitOptional := true }]
  oneofs := [⟨"to", [.ordinary { name := "door", number := 2, element := .scalar .int32 }]⟩]
  messages := []
  enums := []
  declarationOrder := ["note", "door"]

def mail : FileUnit :=
  { servicesFile [serviceOf "Mail" ["Send", "Bind", "Request"]] with messages := [parcel] }

def mailMapper : Mapper := { shopMapper with scope := { file := "shop.proto", package := "" } }

theorem mail_signatures_legal : IsWords mail ∧
    ∃ values, Value.Module.ofUnit mailMapper mail = .ok values ∧
    ∃ module, Module.ofUnit shopMapper mail = .ok module ∧
      (∀ f ∈ values.allFunctions, f.toText.Legal) ∧ ∀ f ∈ module.allFunctions, f.toText.Legal := by
  have words : IsWords mail := ⟨by decide, by decide⟩
  obtain ⟨values, ofValues⟩ := Result.exists_of_isSome (x := Value.Module.ofUnit mailMapper mail) rfl
  obtain ⟨module, ofServices⟩ := Result.exists_of_isSome (x := Module.ofUnit shopMapper mail) rfl
  have apart : ∀ s ∈ mail.services, ParametersApart s := by decide +kernel
  obtain ⟨ofMessages, ofMethods, _⟩ := signatures_legal_iff words ofValues ofServices
  exact ⟨words, values, ofValues, module, ofServices, ofMessages, ofMethods.mpr apart⟩

example : ((partialInit []).toText.signature Code.indent) = ["    def __init__(self, *) -> None:"] := by
  decide

def Faulty (unit : FileUnit) : Prop :=
  IsWords unit ∧ (∀ s ∈ unit.services, (s.methods.map (·.name)).Nodup) ∧
  ∃ module, Module.ofUnit shopMapper unit = .ok module ∧ ∃ f ∈ module.allFunctions, ¬ f.toText.Legal

theorem faulty_of_not_apart {unit : FileUnit} (words : IsWords unit)
    (names : ∀ s ∈ unit.services, (s.methods.map (·.name)).Nodup)
    (succeeds : (Module.ofUnit shopMapper unit).toOption.isSome = true)
    (together : ∃ s ∈ unit.services, ¬ ParametersApart s) : Faulty unit := by
  obtain ⟨module, result⟩ := Result.exists_of_isSome succeeds
  have built := Module.ofUnit_eq_ok result
  obtain ⟨s, isService, clash⟩ := together
  rw [← built.services] at isService
  obtain ⟨b, isBound, rfl⟩ := List.mem_map.mp isService
  refine ⟨words, names, module, result, partialInit b.bindings, ?_, ?_⟩
  · exact List.mem_flatMap.mpr ⟨b, isBound, b.partialInit_mem⟩
  · rwa [built.partialInit_legal_iff words isBound]

/-- A service without methods, a method that is called like the object, and two methods that are one
    name in snake case. -/
theorem shops_illegal : Faulty (servicesFile [serviceOf "Shop" []]) ∧
    Faulty (servicesFile [serviceOf "Shop" ["Self"]]) ∧
    Faulty (servicesFile [serviceOf "Shop" ["GetItem", "get_item"]]) := by
  refine ⟨?_, ?_, ?_⟩
  all_goals exact faulty_of_not_apart ⟨by decide, by decide⟩ (by decide) (by decide) (by decide +kernel)

end Examples

end ProtoBindings.Service
