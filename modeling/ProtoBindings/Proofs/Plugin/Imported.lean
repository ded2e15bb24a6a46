import ProtoBindings.Proofs.Import.Aliases
import ProtoBindings.Proofs.Plugin.Outputs

namespace ProtoBindings.Plugin

open Mapping (EnumIndex)
open Name (generatedModule outputPath valueModule serviceModule)
open Resolver (After refAt)
open Schema (FileUnit)

variable {config : Config} {resolver : Resolver}

def Config.outputOptions (config : Config) : OutputOptions := ⟨config.packagePrefix, config.services⟩

/-- An output that is a module of a file, with the imports of that module. -/
inductive Renders (config : Config) (resolver : Resolver) (file : Descriptor.File) :
    Output → List Import → Prop
  | values (unit : FileUnit) (module : Value.Module) : resolver.find? file.name = some unit →
      Value.Module.ofUnit
        (Output.valueMapper config.outputOptions (EnumIndex.ofUnits resolver.files) unit) unit =
          .ok module →
      Renders config resolver file
        ⟨outputPath (valueModule file.package file.name config.packagePrefix), module.render⟩
        module.imports
  | services (unit : FileUnit) (module : Service.Module) : resolver.find? file.name = some unit →
      Service.Module.ofUnit
        (Output.serviceMapper config.outputOptions (EnumIndex.ofUnits resolver.files) unit) unit =
          .ok module →
      Renders config resolver file
        ⟨outputPath (serviceModule file.package file.name config.packagePrefix), module.render⟩
        module.imports

theorem Delivers.values_rendered {file : Descriptor.File} {unit : FileUnit} {content : String}
    (found : resolver.find? file.name = some unit)
    (made : Output.valueContent ⟨config.packagePrefix, config.services⟩
      (EnumIndex.ofUnits resolver.files) unit = .ok content) :
    ∃ imports, Renders config resolver file
      ⟨outputPath (valueModule file.package file.name config.packagePrefix), content⟩ imports := by
  simp only [Output.valueContent, Result.bind_eq_ok, Result.pure_eq_ok] at made
  obtain ⟨module, result, rfl⟩ := made
  exact ⟨module.imports, .values unit module found result⟩

theorem Delivers.services_rendered {file : Descriptor.File} {unit : FileUnit} {content : String}
    (found : resolver.find? file.name = some unit)
    (made : Output.serviceContent ⟨config.packagePrefix, config.services⟩
      (EnumIndex.ofUnits resolver.files) unit = .ok content) :
    ∃ imports, Renders config resolver file
      ⟨outputPath (serviceModule file.package file.name config.packagePrefix), content⟩ imports := by
  simp only [Output.serviceContent, Result.bind_eq_ok, Result.pure_eq_ok] at made
  obtain ⟨module, result, rfl⟩ := made
  exact ⟨module.imports, .services unit module found result⟩

theorem Delivers.rendered {file : Descriptor.File} {part : List Output}
    (delivered : Delivers config resolver file part) :
    ∀ o ∈ part, ∃ imports, Renders config resolver file o imports := by
  intro o isOutput
  cases delivered with
  | values unit content found made _ =>
    rw [List.mem_singleton.mp isOutput]
    exact values_rendered found made
  | both unit content service found made _ _ bindings =>
    simp only [List.mem_cons, List.not_mem_nil, or_false] at isOutput
    rcases isOutput with rfl | rfl
    · exact values_rendered found made
    · exact services_rendered found bindings

section Home

variable {scope : Scope} {refs : List Schema.TypeRef} {package name : String} {i : Import}

theorem ref_of_importable (importable : Value.Importable scope refs i)
    (isValue : i = .ofModule (valueModule package name scope.packagePrefix)) :
    ∃ ref ∈ refs, isGoogleType ref.fullName = false ∧
      valueModule package name scope.packagePrefix = scope.moduleOf ref := by
  obtain ⟨noName, aliased⟩ : i.name = none ∧ i.localName ≠ none := by
    rw [isValue]
    exact ⟨rfl, nofun⟩
  cases importable with
  | library isLibrary =>
    cases isLibrary with
    | standard => exact absurd rfl aliased
    | typing | wellKnown | parsers => cases noName
    | host file =>
      obtain ⟨start, ofHost⟩ := Value.bound_host file
      obtain ⟨start', ofValue⟩ := Value.bound_value package name scope.packagePrefix
      rw [isValue, ofValue] at ofHost
      have apart : Name.Apart "_idiom" "_pb2" := by decide
      exact absurd ofHost (apart.append_ne start' start)
  | generated ref isRef own _ =>
    exact ⟨ref, isRef, own, (congrArg Import.module isValue).symm⟩

theorem ref_of_service_importable (importable : Service.Importable scope refs i)
    (isValue : i = .ofModule (valueModule package name scope.packagePrefix)) :
    ∃ ref ∈ refs, isGoogleType ref.fullName = false ∧
      valueModule package name scope.packagePrefix = scope.moduleOf ref := by
  obtain ⟨noName, aliased⟩ : i.name = none ∧ i.localName ≠ none := by
    rw [isValue]
    exact ⟨rfl, nofun⟩
  cases importable with
  | value importable => exact ref_of_importable importable isValue
  | library => exact absurd rfl aliased
  | typing | metadata | rpc => cases noName

end Home

def DeclaresOwn (g : Descriptor.File) : Prop :=
  ∃ path d, g.Declares path d ∧ isGoogleType (refAt g path).fullName = false

theorem Renders.home {files : List Descriptor.File} (state : After files resolver)
    {file : Descriptor.File} {o : Output} {imports : List Import}
    (rendered : Renders config resolver file o imports) {package name : String}
    (imported : .ofModule (valueModule package name config.packagePrefix) ∈ imports) :
    ∃ g ∈ files, DeclaresOwn g ∧ valueModule package name config.packagePrefix =
      valueModule g.package g.name config.packagePrefix := by
  obtain ⟨unit, found, ref, isRef, own, same⟩ : ∃ unit, resolver.find? file.name = some unit ∧
      ∃ ref ∈ unit.refs, isGoogleType ref.fullName = false ∧
        valueModule package name config.packagePrefix =
          valueModule ref.package ref.file config.packagePrefix := by
    cases rendered with
    | values unit module found result =>
      obtain ⟨ref, isRef, known⟩ :=
        ref_of_importable (Value.Module.imports_known result _ imported) rfl
      exact ⟨unit, found, ref, List.mem_append_left _ isRef, known⟩
    | services unit module found result =>
      obtain ⟨ref, isRef, known⟩ :=
        ref_of_service_importable (Service.Module.imports_known result _ imported) rfl
      exact ⟨unit, found, ref, List.mem_append_right _ isRef, known⟩
  obtain ⟨before, f, after, split, built⟩ := state.unit (List.mem_of_find?_eq_some found)
  obtain ⟨g, isRead, path, d, declares, rfl⟩ := built.ref_declared ref isRef
  refine ⟨g, ?_, ⟨path, d, declares, own⟩, same⟩
  rw [split]
  simp only [List.mem_append, List.mem_cons, List.not_mem_nil, or_false] at isRead ⊢
  exact isRead.imp_right .inl

/-- The value modules that the outputs of a request import are those of files of the request that
    declare types outside `google`. Such a module is among the outputs exactly if a file with its
    directory and stem is asked for and not excluded. -/
theorem imported_generated_iff {environment : Option String} {request : Descriptor.Request}
    {outputs : List Output}
    (configured : Config.ofParameter request.parameter environment = .ok config)
    (fileNames : (request.files.map (·.name)).Nodup)
    (generated : (generate environment request).result = .ok outputs) :
    ∃ resolver, resolve request.files = .ok resolver ∧
      ∀ o ∈ outputs, ∃ file imports, Asked config request file ∧
        Renders config resolver file o imports ∧
        ∀ package name, .ofModule (valueModule package name config.packagePrefix) ∈ imports →
          ∃ g ∈ request.files, DeclaresOwn g ∧
            valueModule package name config.packagePrefix =
              valueModule g.package g.name config.packagePrefix ∧
            (outputPath (valueModule package name config.packagePrefix) ∈ outputs.map (·.path) ↔
              ∃ h, Asked config request h ∧ place h = place g) := by
  obtain ⟨resolver, resolved, parts, same, each⟩ := generate_eq_ok configured generated
  refine ⟨resolver, resolved, fun o isOutput => ?_⟩
  rw [same, List.mem_flatten] at isOutput
  obtain ⟨part, isPart, inPart⟩ := isOutput
  obtain ⟨_, isName, file, isFile, rfl, delivered⟩ := each.exists_left isPart
  obtain ⟨named, wanted⟩ := List.mem_filter.mp isName
  obtain ⟨imports, rendered⟩ := delivered.rendered o inPart
  refine ⟨file, imports, ⟨isFile, named, by simpa using wanted⟩, rendered, ?_⟩
  intro package name imported
  obtain ⟨g, isHome, own, isModule⟩ := rendered.home (Resolver.after_resolve resolved) imported
  refine ⟨g, isHome, own, isModule, ?_⟩
  rw [isModule]
  exact valueModule_output_iff configured fileNames generated g

section Examples

/-- A file of one of the packages that are never generated, but whose types are not those of `google`. -/
def rules : Descriptor.File where
  name := "validate/rules.proto"
  package := "validate"
  messages := [{ name := "Rule" }]

def member : Descriptor.File where
  name := "member.proto"
  dependencies := ["validate/rules.proto"]
  messages := [{ name := "Member", fields := [
    { name := "rule", number := 1, type := .message, typeName := ".validate.Rule" }] }]

def memberRequest : Descriptor.Request :=
  ⟨["validate/rules.proto", "member.proto"], "", [rules, member]⟩

theorem member_imported : ∃ outputs,
    (generate none memberRequest).result = .ok outputs ∧ ∃ resolver,
      resolve memberRequest.files = .ok resolver ∧
      ∀ o ∈ outputs, ∃ file imports, Asked {} memberRequest file ∧ Renders {} resolver file o imports ∧
        ∀ package name, .ofModule (valueModule package name none) ∈ imports →
          ∃ g ∈ memberRequest.files, DeclaresOwn g ∧
            valueModule package name none = valueModule g.package g.name none ∧
            (outputPath (valueModule package name none) ∈ outputs.map (·.path) ↔
              ∃ h, Asked {} memberRequest h ∧ place h = place g) := by
  have configured : Config.ofParameter memberRequest.parameter none = .ok {} := rfl
  have succeeds : (generate none memberRequest).result.toOption.isSome := by decide +kernel
  obtain ⟨outputs, generated⟩ := Result.exists_of_isSome succeeds
  exact ⟨outputs, generated, imported_generated_iff configured (by decide) generated⟩

theorem rule_not_generated : (memberRequest.files.map (·.name)).Nodup ∧
    memberRequest.filesToGenerate = memberRequest.files.map (·.name) ∧
    Config.ofParameter memberRequest.parameter none = .ok {} ∧
    (∃ outputs, (generate none memberRequest).result = .ok outputs ∧
      outputs.map (·.path) = ["member_idiom.py"]) ∧
    ∃ resolver, resolve memberRequest.files = .ok resolver ∧
      ∃ unit ∈ resolver.files, unit.name = "member.proto" ∧
        ∃ module, Value.Module.ofUnit
            (Output.valueMapper {} (EnumIndex.ofUnits resolver.files) unit) unit = .ok module ∧
          ∃ i ∈ module.imports, i.module = "validate.rules_idiom" :=
  ⟨by decide, rfl, rfl, by decide +kernel, by decide +kernel⟩

end Examples

end ProtoBindings.Plugin
