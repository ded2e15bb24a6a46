import ProtoBindings.Plugin.Run
import ProtoBindings.Proofs.Output
import ProtoBindings.Proofs.Resolver.Members
import ProtoBindings.Proofs.Resolver.Unit

namespace ProtoBindings.Plugin

open Mapping (EnumIndex)
open Resolver (After Known Symbol SymbolTable UnitBuilt fileSymbols refAt)
open Schema (FileUnit)

/-- What the schema compiler sees to: names tell files apart, enums have values and are not declared in
    map entries, and names have no percent signs. -/
structure WellFormed (files : List Descriptor.File) : Prop where
  fileNames : (files.map (·.name)).Nodup
  values : ∀ file ∈ files, ∀ e ∈ file.enums, e.values ≠ []
  nestedValues : ∀ file ∈ files, ∀ n ∈ file.nodes, ∀ e ∈ n.message.enums, e.values ≠ []
  entries : ∀ file ∈ files, ∀ n ∈ file.nodes, n.isHidden = true → n.message.enums = []
  plainFiles : ∀ file ∈ files, PercentFree file.name
  plainSymbols : ∀ file ∈ files, ∀ s ∈ fileSymbols file, PercentFree s.ref.fullName

/-- The outputs for a file: its value module, and its service module if services are asked for and
    the file declares some. -/
inductive Delivers (config : Config) (resolver : Resolver) (file : Descriptor.File) :
    List Output → Prop
  | values (unit : FileUnit) (content : String) : resolver.find? file.name = some unit →
      Output.valueContent ⟨config.packagePrefix, config.services⟩
        (EnumIndex.ofUnits resolver.files) unit = .ok content →
      ¬ (config.services = true ∧ file.services ≠ []) →
      Delivers config resolver file
        [⟨Name.outputPath (Name.valueModule file.package file.name config.packagePrefix), content⟩]
  | both (unit : FileUnit) (content service : String) : resolver.find? file.name = some unit →
      Output.valueContent ⟨config.packagePrefix, config.services⟩
        (EnumIndex.ofUnits resolver.files) unit = .ok content →
      config.services = true → file.services ≠ [] →
      Output.serviceContent ⟨config.packagePrefix, config.services⟩
        (EnumIndex.ofUnits resolver.files) unit = .ok service →
      Delivers config resolver file
        [⟨Name.outputPath (Name.valueModule file.package file.name config.packagePrefix), content⟩,
          ⟨Name.outputPath (Name.serviceModule file.package file.name config.packagePrefix), service⟩]

section Config

theorem isModulePath_of_validate {config config' : Config} {path : String}
    (validated : config.validate = .ok config') (given : config'.packagePrefix = some path) :
    Config.isModulePath path = true := by
  unfold Config.validate at validated
  split at validated
  · cases validated
  · cases validated
  · rename_i noBadPath _
    cases validated
    rw [given, Option.filter_eq_none_iff] at noBadPath
    simpa using noBadPath path rfl

variable {parameter : String} {environment : Option String} {config : Config}
  (configured : Config.ofParameter parameter environment = .ok config)
include configured

theorem prefix_isModulePath {path : String} (given : config.packagePrefix = some path) :
    Config.isModulePath path = true := by
  simp only [Config.ofParameter, Result.bind_eq_ok] at configured
  obtain ⟨options, _, raw, _, validated⟩ := configured
  exact isModulePath_of_validate validated given

theorem prefix_plain : ∀ part ∈ Name.components (config.packagePrefix.getD ""), PercentFree part := by
  cases given : config.packagePrefix with
  | none => exact Name.percentFree_components (by decide)
  | some path =>
    exact Name.percentFree_components_of_modulePath (prefix_isModulePath configured given)

end Config

section WellFormed

variable {files : List Descriptor.File} {resolver : Resolver} (wellFormed : WellFormed files)
  (state : After files resolver)
include wellFormed

theorem WellFormed.visible_of_symbol {file : Descriptor.File} (isFile : file ∈ files) {s : Symbol}
    (declared : s ∈ fileSymbols file) (isEnum : s.declaration = .enum) :
    ∃ d ∈ file.visibleEnums, s.ref = refAt file (d.1 ++ [d.2.name]) := by
  rw [Descriptor.File.mem_symbols] at declared
  rcases declared with ⟨n, isNode, rfl | ⟨e, member, rfl⟩⟩ | ⟨e, member, rfl⟩
  · cases isEnum
  · refine ⟨(n.path, e), ?_, rfl⟩
    have shown : n.isHidden = false := by
      refine Bool.eq_false_iff.mpr fun hidden => ?_
      rw [wellFormed.entries file isFile n isNode hidden] at member
      cases member
    refine List.mem_append_right _ (List.mem_flatMap.mpr ⟨n, ?_, List.mem_map_of_mem member⟩)
    exact List.mem_filter.mpr ⟨isNode, by simp [shown]⟩
  · exact ⟨([], e), List.mem_append_left _ (List.mem_map_of_mem member), rfl⟩

theorem WellFormed.values_of_visible {file : Descriptor.File} (isFile : file ∈ files)
    {d : List String × Descriptor.Enum} (visible : d ∈ file.visibleEnums) : d.2.values ≠ [] := by
  simp only [Descriptor.File.visibleEnums, List.mem_append, List.mem_map, List.mem_flatMap,
    List.mem_filter] at visible
  rcases visible with ⟨e, isEnum, rfl⟩ | ⟨n, ⟨isNode, _⟩, e, isEnum, rfl⟩
  · exact wellFormed.values file isFile e isEnum
  · exact wellFormed.nestedValues file isFile n isNode e isEnum

include state

theorem WellFormed.firstValue_succeeds {file : Descriptor.File} (isFile : file ∈ files) {s : Symbol}
    (declared : s ∈ fileSymbols file) (isEnum : s.declaration = .enum) (scope : Scope) :
    ∃ first, Mapper.firstValue ⟨scope, EnumIndex.ofUnits resolver.files⟩ s.ref = .ok first := by
  obtain ⟨d, visible, isRef⟩ := wellFormed.visible_of_symbol isFile declared isEnum
  obtain ⟨unit, isUnit, _, before, after, _, built⟩ :=
    state.unit_of_file wellFormed.fileNames isFile
  obtain ⟨own, isOwn, made⟩ := built.allEnums.exists_right visible
  have indexed : own ∈ (EnumIndex.ofUnits resolver.files).reverse :=
    List.mem_reverse.mpr (List.mem_flatMap.mpr ⟨unit, isUnit, isOwn⟩)
  have named : own.fullName = s.ref.fullName := by
    obtain ⟨_, _, rfl⟩ := Resolver.buildEnum_eq_ok.mp made
    rw [isRef]
  have some : ((EnumIndex.ofUnits resolver.files).find? s.ref.fullName).isSome :=
    List.find?_isSome.mpr ⟨own, indexed, by simp [named]⟩
  obtain ⟨e, found⟩ := Option.isSome_iff_exists.mp some
  have isKnown := List.mem_reverse.mp (List.mem_of_find?_eq_some found)
  obtain ⟨other, isOther, member⟩ := List.mem_flatMap.mp isKnown
  obtain ⟨before', g, after', split', built'⟩ := state.unit isOther
  obtain ⟨d', visible', made'⟩ := built'.allEnums.exists_left member
  obtain ⟨_, _, rfl⟩ := Resolver.buildEnum_eq_ok.mp made'
  have isFile' : g ∈ files := by simp [split']
  obtain ⟨value, rest, values⟩ :=
    List.exists_cons_of_ne_nil (wellFormed.values_of_visible isFile' visible')
  refine ⟨value.name, ?_⟩
  rw [Mapper.firstValue, found]
  simp [values]

omit state in
theorem WellFormed.plain_of_found {before after : List Descriptor.File} {file : Descriptor.File}
    (split : files = before ++ file :: after) {name : String} {s : Symbol}
    (found : (SymbolTable.ofFiles (before ++ [file])).find? name = some s) : Plain s.ref := by
  obtain ⟨g, isFile, declared⟩ := Resolver.declared_of_found split found
  exact plain_of_symbol declared (wellFormed.plainFiles g isFile)
    (wellFormed.plainSymbols g isFile s declared)

theorem WellFormed.supports {before after : List Descriptor.File} {file : Descriptor.File}
    (split : files = before ++ file :: after) {e : Schema.ElementType}
    (known : Known (.ofFiles (before ++ [file])) e) (scope : Scope) :
    Mapper.Supports ⟨scope, EnumIndex.ofUnits resolver.files⟩ e := by
  cases known with
  | scalar type => exact .scalar type
  | named name s found =>
    have plain := wellFormed.plain_of_found split found
    obtain ⟨g, isFile, declared⟩ := Resolver.declared_of_found split found
    rw [Symbol.element]
    split
    · exact .message _ plain
    · rename_i isEnum
      obtain ⟨first, value⟩ := wellFormed.firstValue_succeeds state isFile declared isEnum scope
      exact .enum _ first plain value

omit state in
theorem WellFormed.plain_methods {room : Resolver.Room} {before after : List Descriptor.File} {file : Descriptor.File}
    (split : files = before ++ file :: after) {unit : FileUnit}
    (built : UnitBuilt room (.ofFiles (before ++ [file])) file unit) :
    ∀ s ∈ unit.services, ∀ m ∈ s.methods, Plain m.input ∧ Plain m.output := by
  intro s isService m isMethod
  obtain ⟨described, _, result⟩ := built.services.exists_left isService
  simp only [Resolver.buildService, Result.bind_eq_ok, Result.pure_eq_ok, Result.mapM_eq_ok] at result
  obtain ⟨methods, walk, rfl⟩ := result
  obtain ⟨method, _, result⟩ := walk.exists_left isMethod
  simp only [Resolver.buildMethod, Result.bind_eq_ok, Result.pure_eq_ok] at result
  obtain ⟨input, isInput, output, isOutput, rfl⟩ := result
  exact ⟨wellFormed.plain_of_found split (Resolver.resolve_eq_ok isInput),
    wellFormed.plain_of_found split (Resolver.resolve_eq_ok isOutput)⟩

theorem WellFormed.generateFile_succeeds {config : Config}
    (plain : ∀ part ∈ Name.components (config.packagePrefix.getD ""), PercentFree part)
    {file : Descriptor.File} (isFile : file ∈ files) :
    ∃ unit outputs, generateFile config resolver file.name = .ok (unit, outputs) ∧
      Delivers config resolver file outputs := by
  obtain ⟨unit, isUnit, found, before, after, split, built⟩ :=
    state.unit_of_file wellFormed.fileNames isFile
  have got : resolver.get file.name = .ok unit := by rw [Resolver.get, found]
  obtain ⟨content, values⟩ : ∃ content, Output.valueContent ⟨config.packagePrefix, config.services⟩
      (EnumIndex.ofUnits resolver.files) unit = .ok content := by
    refine Output.valueContent_succeeds plain fun m member => ?_
    obtain ⟨_, _, _, _, whole⟩ := built.message member
    refine ⟨whole.complete, fun f isField e isElement => ?_⟩
    exact wellFormed.supports state split (built.known member isField e isElement) _
  have generated (outputs) (result : Output.ofUnit ⟨config.packagePrefix, config.services⟩
      (EnumIndex.ofUnits resolver.files) unit = .ok outputs) :
      generateFile config resolver file.name = .ok (unit, outputs) := by
    rw [generateFile, got]
    simp only [Except.mapError, bind, Except.bind, result, pure, Except.pure]
  have same : unit.services.isEmpty = file.services.isEmpty := by
    rw [Bool.eq_iff_iff, List.isEmpty_iff_length_eq_zero, List.isEmpty_iff_length_eq_zero,
      built.services.length_eq]
  -- There are two outputs if services are asked for and the file has some, else one.
  by_cases asked : config.services = true ∧ file.services ≠ []
  · obtain ⟨service, bindings⟩ : ∃ service,
        Output.serviceContent ⟨config.packagePrefix, config.services⟩
          (EnumIndex.ofUnits resolver.files) unit = .ok service :=
      Output.serviceContent_succeeds plain (wellFormed.plain_methods split built)
    refine ⟨unit, _, generated _ ?_, .both unit content service found values asked.1 asked.2 bindings⟩
    have wanted : (config.services && !unit.services.isEmpty) = true := by simp [same, asked]
    rw [Output.ofUnit, values]
    simp only [bind, Except.bind, wanted, if_true, bindings, Output.valuePath, Output.servicePath,
      built.name, built.package]
    rfl
  · refine ⟨unit, _, generated _ ?_, .values unit content found values asked⟩
    have unwanted : (config.services && !unit.services.isEmpty) = false := by
      rw [same]
      simpa using asked
    rw [Output.ofUnit, values]
    simp only [bind, Except.bind, unwanted, Bool.false_eq_true, if_false, Output.valuePath, built.name,
      built.package]
    rfl

end WellFormed

def isMissing (config : Config) (files : List Descriptor.File) (name : String) : Bool :=
  !config.isExcluded name && !files.any (·.name == name)

section Names

variable {config : Config} {files : List Descriptor.File} {resolver : Resolver} {names : List String}

theorem generateFiles_cons_excluded {name : String} (excluded : config.isExcluded name = true) :
    (generateFiles config resolver (name :: names)).result =
      (generateFiles config resolver names).result := by
  rw [generateFiles, if_pos excluded]

theorem generateFiles_cons_ok {name : String} (wanted : config.isExcluded name = false)
    {unit : FileUnit} {outputs : List Output}
    (generated : generateFile config resolver name = .ok (unit, outputs)) :
    (generateFiles config resolver (name :: names)).result =
      (generateFiles config resolver names).result.map (outputs ++ ·) := by
  rw [generateFiles, if_neg (by simp [wanted]), generated]

theorem generateFiles_result (names : List String)
    (each : ∀ file ∈ files, ∃ unit outputs,
      generateFile config resolver file.name = .ok (unit, outputs) ∧
        Delivers config resolver file outputs)
    (unknown : ∀ name, (∀ file ∈ files, file.name ≠ name) → resolver.find? name = none) :
    match names.find? (isMissing config files) with
    | none => ∃ parts, (generateFiles config resolver names).result = .ok parts.flatten ∧
        List.Forall₂ (fun name part => ∃ file ∈ files, file.name = name ∧
          Delivers config resolver file part) (names.filter (!config.isExcluded ·)) parts
    | some name => (generateFiles config resolver names).result =
        .error (.resolver (.unknownFile name)) := by
  induction names with
  | nil => exact ⟨[], rfl, .nil⟩
  | cons name rest ih =>
    by_cases excluded : config.isExcluded name = true
    · have present : isMissing config files name = false := by simp [isMissing, excluded]
      rw [List.find?_cons_of_neg (by simp [present]), generateFiles_cons_excluded excluded,
        List.filter_cons_of_neg (by simp [excluded])]
      exact ih
    · have wanted : config.isExcluded name = false := by simpa using excluded
      by_cases known : ∃ file ∈ files, file.name = name
      · obtain ⟨file, isFile, rfl⟩ := known
        obtain ⟨unit, outputs, generated, delivered⟩ := each file isFile
        have present : isMissing config files file.name = false := by
          simp only [isMissing, wanted, Bool.not_false, Bool.true_and, Bool.not_eq_false']
          exact List.any_eq_true.mpr ⟨file, isFile, beq_self_eq_true _⟩
        rw [List.find?_cons_of_neg (by simp [present]), generateFiles_cons_ok wanted generated,
          List.filter_cons_of_pos (by simp [wanted])]
        split at ih
        · obtain ⟨parts, result, all⟩ := ih
          exact ⟨outputs :: parts, by rw [result]; rfl, .cons ⟨file, isFile, rfl, delivered⟩ all⟩
        · rw [ih]
          rfl
      · have absent : ∀ file ∈ files, file.name ≠ name := fun file isFile same =>
          known ⟨file, isFile, same⟩
        have missing : isMissing config files name = true := by
          simpa [isMissing, wanted] using absent
        rw [List.find?_cons_of_pos missing, generateFiles, if_neg excluded, generateFile,
          Resolver.get, unknown name absent]
        rfl

end Names

theorem unknownFile_message (name : String) :
    (Failure.resolver (.unknownFile name)).message =
      "[generation] File " ++ name ++ " has not been resolved" := by
  have detail : (Failure.resolver (.unknownFile name)).detail =
      "File " ++ name ++ " has not been resolved" := rfl
  have lead : "[" ++ Stage.generation.tag ++ "] " ++ "File " = "[generation] File " := by decide
  rw [Failure.message, detail, ← String.append_assoc, ← String.append_assoc, ← lead]
  rfl

/-- A well-formed request has the outputs of the files that it asks for and that are not excluded, in
    the order of the request. If one of them is not there, the first such one is reported. -/
theorem generate_of_wellFormed {environment : Option String} {request : Descriptor.Request}
    {config : Config} {resolver : Resolver}
    (configured : Config.ofParameter request.parameter environment = .ok config)
    (wellFormed : WellFormed request.files) (resolved : resolve request.files = .ok resolver) :
    match request.filesToGenerate.find? (isMissing config request.files) with
    | none => ∃ parts, (generate environment request).result = .ok parts.flatten ∧
        List.Forall₂ (fun name part => ∃ file ∈ request.files, file.name = name ∧
          Delivers config resolver file part)
          (request.filesToGenerate.filter (!config.isExcluded ·)) parts
    | some name => ∃ failure, (generate environment request).result = .error failure ∧
        failure = .resolver (.unknownFile name) ∧ failure.stage = .generation ∧
        failure.message = "[generation] File " ++ name ++ " has not been resolved" := by
  have state := Resolver.after_resolve resolved
  have result : (generate environment request).result =
      (generateFiles config resolver request.filesToGenerate).result := by
    have all : (Resolver.addAll {} request.files).2 = .ok resolver := resolved
    simp [generate, configured, all]
  have unknown : ∀ name, (∀ file ∈ request.files, file.name ≠ name) → resolver.find? name = none := by
    intro name absent
    refine List.find?_eq_none.mpr fun unit isUnit same => ?_
    obtain ⟨before, file, after, split, built⟩ := state.unit isUnit
    exact absent file (by simp [split]) (built.name.symm.trans (beq_iff_eq.mp same))
  have each : ∀ file ∈ request.files, ∃ unit outputs,
      generateFile config resolver file.name = .ok (unit, outputs) ∧
        Delivers config resolver file outputs := fun file isFile =>
    wellFormed.generateFile_succeeds state (prefix_plain configured) isFile
  have outcome := generateFiles_result request.filesToGenerate each unknown
  rw [result]
  cases missing : request.filesToGenerate.find? (isMissing config request.files) with
  | none =>
    simp only [missing] at outcome ⊢
    exact outcome
  | some name =>
    simp only [missing] at outcome ⊢
    exact ⟨_, outcome, rfl, rfl, unknownFile_message name⟩

def chat : Descriptor.File where
  name := "chat.proto"
  package := "talk"
  enums := [{ name := "Mood", values := [{ name := "CALM" }] }]
  messages := [{ name := "Note", fields := [
    { name := "mood", number := 1, type := .enum, typeName := ".talk.Mood" }] }]
  services := [{ name := "Chat", methods := [
    { name := "Send", input := ".talk.Note", output := ".talk.Note" }] }]

theorem chat_wellFormed : WellFormed [chat] where
  fileNames := by decide
  values := by decide
  nestedValues := by decide
  entries := by decide
  plainFiles := by decide
  plainSymbols := by decide

theorem chat_generates : ∃ resolver, Config.ofParameter "" none = .ok {} ∧ WellFormed [chat] ∧
    resolve [chat] = .ok resolver ∧
    (∃ part, (generate none ⟨["google/any.proto", "chat.proto"], "", [chat]⟩).result = .ok part ∧
      Delivers {} resolver chat part) ∧
    (generate none ⟨["chat.proto", "gone.proto"], "", [chat]⟩).result =
      .error (.resolver (.unknownFile "gone.proto")) := by
  have configured : Config.ofParameter "" none = .ok {} := by rfl
  have succeeds : (resolve [chat]).toOption.isSome := by decide +kernel
  obtain ⟨resolver, resolved⟩ := Result.exists_of_isSome succeeds
  refine ⟨resolver, configured, chat_wellFormed, resolved, ?_, ?_⟩
  · have outcome := @generate_of_wellFormed none ⟨["google/any.proto", "chat.proto"], "", [chat]⟩ {}
      resolver configured chat_wellFormed resolved
    have present : ["google/any.proto", "chat.proto"].find? (isMissing {} [chat]) = none := by decide
    have asked : ["google/any.proto", "chat.proto"].filter (!Config.isExcluded {} ·) =
      ["chat.proto"] := by decide
    simp only [present, asked] at outcome
    obtain ⟨parts, result, all⟩ := outcome
    cases all with
    | cons first rest =>
      cases rest
      obtain ⟨file, isFile, _, delivered⟩ := first
      rw [List.mem_singleton.mp isFile] at delivered
      exact ⟨_, by simpa using result, delivered⟩
  · have outcome := @generate_of_wellFormed none ⟨["chat.proto", "gone.proto"], "", [chat]⟩ {}
      resolver configured chat_wellFormed resolved
    have missing : ["chat.proto", "gone.proto"].find? (isMissing {} [chat]) =
      some "gone.proto" := by decide
    simp only [missing] at outcome
    obtain ⟨failure, result, rfl, _⟩ := outcome
    exact result

end ProtoBindings.Plugin
