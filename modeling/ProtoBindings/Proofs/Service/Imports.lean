import ProtoBindings.Proofs.Service.Names
import ProtoBindings.Proofs.Value.Imports

namespace ProtoBindings.Service

open Code (Function)
open Schema (FileUnit Method TypeRef)
open Value (ImportsKnown)

def typingNames : List String :=
  ["AsyncIterable", "AsyncIterator", "Awaitable", "Callable", "Iterable"]

inductive Importable (scope : Scope) (refs : List TypeRef) : Import → Prop
  | value {i} : Value.Importable scope refs i → Importable scope refs i
  | library (module) : module ∈ ["grpc", "warnings"] → Importable scope refs { module }
  | typing (name) : name ∈ typingNames → Importable scope refs (.typing name)
  | metadata : Importable scope refs .metadataSupport
  | rpc : Importable scope refs .rpcSupport

variable {scope : Scope} {refs : List TypeRef}

theorem importable_typing {name : String} (known : name ∈ typingNames) :
    ∀ i ∈ [Import.typing name], Importable scope refs i := by
  intro i member
  rw [List.mem_singleton.mp member]
  exact .typing name known

theorem importable_optional : Importable scope refs (.typing "Optional") :=
  .value (.library (.typing "Optional" (by decide)))

theorem importable_union : Importable scope refs (.typing "Union") :=
  .value (.library (.typing "Union" (by decide)))

structure Side.Imports (scope : Scope) (ref : TypeRef) (side : Side) : Prop where
  host : ImportsKnown scope [ref] side.hostImports
  type : ImportsKnown scope [ref] side.typeImports
  converter : ImportsKnown scope [ref] side.converterImports

theorem Side.of_imports {mapper : Mapper} {ref : TypeRef} {side : Side}
    (result : Side.of mapper ref = .ok side) : side.Imports mapper.scope ref := by
  have host : ImportsKnown mapper.scope [ref] (hostClass ref).imports :=
    Value.importsKnown_hostClass ref
  rw [Side.of] at result
  split at result
  · cases result
    exact ⟨host, .nil, host⟩
  · simp only [Result.bind_eq_ok, Result.pure_eq_ok] at result
    obtain ⟨reader, isReader, writer, isWriter, mapped, isMapped, rfl⟩ := result
    exact ⟨host, Value.mapElement_imports isMapped,
      (Value.reader_imports isReader).append (Value.writer_imports isWriter)⟩

section Binding

structure Binding.Imports (scope : Scope) (b : Binding) : Prop where
  request : b.request.Imports scope b.method.input
  response : b.response.Imports scope b.method.output

theorem Binding.of_imports {mapper : Mapper} {s : Schema.Service} {m : Method} {b : Binding}
    (result : Binding.of mapper s m = .ok b) : b.Imports mapper.scope := by
  simp only [Binding.of, Result.bind_eq_ok, Result.pure_eq_ok] at result
  obtain ⟨request, isRequest, response, isResponse, rfl⟩ := result
  exact ⟨Side.of_imports isRequest, Side.of_imports isResponse⟩

variable {b : Binding} (known : b.Imports scope) (input : b.method.input ∈ refs)
  (output : b.method.output ∈ refs)

section Sides

variable {i : Import} {imports : List Import} {ref : TypeRef} (isRef : ref ∈ refs)
include isRef

theorem importable_of_known (known : ImportsKnown scope [ref] imports) (member : i ∈ imports) :
    Importable scope refs i := by
  have subset : [ref] ⊆ refs := List.cons_subset.mpr ⟨isRef, List.nil_subset refs⟩
  exact .value (known.mono subset i member)

end Sides

include known input output

theorem Binding.constantImports_known : ∀ i ∈ b.constantImports, Importable scope refs i := by
  intro i member
  simp only [constantImports, List.mem_append] at member
  rcases member with ((member | member) | member) | member
  · exact importable_of_known input known.request.converter member
  · exact importable_of_known input known.request.host member
  · exact importable_of_known output known.response.converter member
  · exact importable_of_known output known.response.host member

theorem Binding.signatureImports_known : ∀ i ∈ b.signatureImports, Importable scope refs i := by
  intro i member
  simp only [signatureImports, List.mem_append] at member
  rcases member with (member | member) | member
  · exact importable_of_known input known.request.type member
  · exact importable_of_known output known.response.type member
  · split at member
    · exact importable_typing (by decide) i member
    · cases member

theorem Binding.implementationImports_known :
    ∀ i ∈ b.implementationImports, Importable scope refs i := by
  intro i member
  simp only [implementationImports, List.mem_append] at member
  rcases member with (member | member) | member
  · exact b.signatureImports_known known input output i member
  · exact importable_typing (by decide) i member
  · split at member
    · cases member
    · exact importable_typing (by decide) i member

theorem Binding.clientImports_known : ∀ i ∈ b.clientMethod.imports, Importable scope refs i := by
  intro i member
  simp only [clientMethod, List.mem_append, List.mem_cons] at member
  rcases member with ((((rfl | member) | member) | member) | member) | member
  · exact importable_optional
  · exact importable_of_known input known.request.type member
  · exact importable_of_known output known.response.type member
  · split at member
    · rw [List.mem_singleton.mp member]
      exact .library "warnings" (by decide)
    · cases member
  · split at member
    · simp only [List.mem_cons, List.not_mem_nil, or_false] at member
      rcases member with rfl | rfl | rfl
      · exact .typing _ (by decide)
      · exact .typing _ (by decide)
      · exact importable_union
    · cases member
  · split at member
    · exact importable_typing (by decide) i member
    · cases member

end Binding

theorem Bound.mem_classImports {b : Bound} {i : Import} :
    i ∈ b.classes.flatMap (·.methods.flatMap (·.imports)) ↔
      (∃ r ∈ b.bindings, i ∈ r.signatureImports) ∨ (∃ r ∈ b.bindings, i ∈ r.clientMethod.imports) ∨
        ∃ r ∈ b.bindings, i ∈ r.implementationImports := by
  simp [classes, servicerClass, clientClass, partialClass, handlerFunction, addToServer, clientInit,
    partialInit, Binding.servicerMethod, List.flatMap_map]

theorem Module.imports_known {mapper : Mapper} {unit : FileUnit} {module : Module}
    (result : Module.ofUnit mapper unit = .ok module) :
    ∀ i ∈ module.imports, Importable mapper.scope unit.methodRefs i := by
  have each {b : Bound} (isBound : b ∈ module.services) {r : Binding} (isBinding : r ∈ b.bindings) :
      r.Imports mapper.scope ∧ r.method.input ∈ unit.methodRefs ∧
        r.method.output ∈ unit.methodRefs := by
    obtain ⟨isService, methods⟩ := Module.binding_of result isBound
    obtain ⟨m, isMethod, made⟩ := methods.exists_left isBinding
    obtain ⟨_, rfl⟩ := Binding.of_eq_ok made
    exact ⟨Binding.of_imports made, Schema.FileUnit.mem_methodRefs isService isMethod⟩
  intro i member
  rcases List.mem_append.mp member with ofAdapter | ofService
  · simp only [adapterImports, List.mem_cons, List.not_mem_nil, or_false] at ofAdapter
    rcases ofAdapter with rfl | rfl | rfl | rfl
    · exact .library "grpc" (by decide)
    · exact .typing "Callable" (by decide)
    · exact .metadata
    · exact .rpc
  · obtain ⟨b, isBound, member⟩ := List.mem_flatMap.mp ofService
    simp only [Bound.imports, List.mem_append] at member
    rcases member with (ofConstant | ofDefault) | ofClass
    · obtain ⟨r, isBinding, member⟩ := List.mem_flatMap.mp ofConstant
      obtain ⟨known, input, output⟩ := each isBound isBinding
      exact r.constantImports_known known input output i member
    · obtain ⟨f, isDefault, member⟩ := List.mem_flatMap.mp ofDefault
      obtain ⟨r, isBinding, rfl⟩ := List.mem_map.mp isDefault
      obtain ⟨known, input, output⟩ := each isBound isBinding
      exact r.signatureImports_known known input output i member
    · rcases Bound.mem_classImports.mp ofClass with ⟨r, isBinding, member⟩ | ⟨r, isBinding, member⟩ |
        ⟨r, isBinding, member⟩
      · obtain ⟨known, input, output⟩ := each isBound isBinding
        exact r.signatureImports_known known input output i member
      · obtain ⟨known, input, output⟩ := each isBound isBinding
        exact r.clientImports_known known input output i member
      · obtain ⟨known, input, output⟩ := each isBound isBinding
        exact r.implementationImports_known known input output i member

end ProtoBindings.Service
