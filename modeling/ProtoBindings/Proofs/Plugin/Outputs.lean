import ProtoBindings.Proofs.Name.Path
import ProtoBindings.Proofs.Plugin.Success

namespace ProtoBindings.Plugin

open Mapping (EnumIndex)
open Name (Apart fileStem generatedModule outputPath packageDirectory)
open Resolver (After)
open Schema (FileUnit)

variable {config : Config} {resolver : Resolver} {files : List Descriptor.File} {names : List String}

theorem generateFiles_eq_ok {outputs : List Output}
    (result : (generateFiles config resolver names).result = .ok outputs) :
    ∃ parts, outputs = parts.flatten ∧
      List.Forall₂ (fun name part => ∃ unit, generateFile config resolver name = .ok (unit, part))
        (names.filter (!config.isExcluded ·)) parts := by
  induction names generalizing outputs with
  | nil =>
    cases result
    exact ⟨[], rfl, .nil⟩
  | cons name rest ih =>
    by_cases excluded : config.isExcluded name = true
    · rw [generateFiles_cons_excluded excluded] at result
      rw [List.filter_cons_of_neg (by simp [excluded])]
      exact ih result
    · have wanted : config.isExcluded name = false := by simpa using excluded
      rw [List.filter_cons_of_pos (by simp [wanted])]
      cases generated : generateFile config resolver name with
      | error failure =>
        rw [generateFiles, if_neg excluded, generated] at result
        cases result
      | ok pair =>
        obtain ⟨unit, part⟩ := pair
        rw [generateFiles_cons_ok wanted generated, Result.map_eq_ok] at result
        obtain ⟨others, later, rfl⟩ := result
        obtain ⟨parts, rfl, all⟩ := ih later
        exact ⟨part :: parts, rfl, .cons ⟨unit, generated⟩ all⟩

theorem generateFile_delivers (state : After files resolver) {name : String} {unit : FileUnit}
    {part : List Output} (result : generateFile config resolver name = .ok (unit, part)) :
    ∃ file ∈ files, file.name = name ∧ Delivers config resolver file part := by
  simp only [generateFile, Result.bind_eq_ok, Result.pure_eq_ok, Result.mapError_eq_ok] at result
  obtain ⟨_, got, outputs, made, same⟩ := result
  cases same
  have found : resolver.find? name = some unit := by
    rw [Resolver.get] at got
    split at got
    · rename_i other found
      cases got
      exact found
    · cases got
  have isUnit : unit ∈ resolver.files := List.mem_of_find?_eq_some found
  have named : unit.name = name := by simpa using List.find?_some found
  obtain ⟨before, file, after, split, built⟩ := state.unit isUnit
  have fileNamed : file.name = name := built.name.symm.trans named
  refine ⟨file, by simp [split], fileNamed, ?_⟩
  have services : unit.services.isEmpty = file.services.isEmpty := by
    rw [Bool.eq_iff_iff, List.isEmpty_iff_length_eq_zero, List.isEmpty_iff_length_eq_zero,
      built.services.length_eq]
  rw [← fileNamed] at found
  simp only [Output.ofUnit, Result.bind_eq_ok] at made
  obtain ⟨content, values, made⟩ := made
  split at made
  · rename_i asked
    rw [services, Bool.and_eq_true, Bool.not_eq_true', List.isEmpty_eq_false_iff] at asked
    simp only [Result.bind_eq_ok, Result.pure_eq_ok] at made
    obtain ⟨service, bindings, rfl⟩ := made
    have delivered := Delivers.both unit content service found values asked.1 asked.2 bindings
    rwa [← built.name, ← built.package] at delivered
  · rename_i unasked
    rw [services, Bool.and_eq_true, Bool.not_eq_true', List.isEmpty_eq_false_iff] at unasked
    cases made
    have delivered := Delivers.values unit content found values unasked
    rwa [← built.name, ← built.package] at delivered

/-- A request that succeeds resolves its files, and has the outputs of those that it asks for and that
    are not excluded, in the order of the request. -/
theorem generate_eq_ok {environment : Option String} {request : Descriptor.Request}
    {outputs : List Output}
    (configured : Config.ofParameter request.parameter environment = .ok config)
    (generated : (generate environment request).result = .ok outputs) :
    ∃ resolver, resolve request.files = .ok resolver ∧
      ∃ parts, outputs = parts.flatten ∧ List.Forall₂ (fun name part =>
        ∃ file ∈ request.files, file.name = name ∧ Delivers config resolver file part)
        (request.filesToGenerate.filter (!config.isExcluded ·)) parts := by
  cases resolved : resolve request.files with
  | error error =>
    have failed : (Resolver.addAll {} request.files).2 = .error error := resolved
    simp [generate, configured, failed] at generated
  | ok resolver =>
    have all : (Resolver.addAll {} request.files).2 = .ok resolver := resolved
    have result : (generateFiles config resolver request.filesToGenerate).result = .ok outputs := by
      simpa [generate, configured, all] using generated
    obtain ⟨parts, same, each⟩ := generateFiles_eq_ok result
    refine ⟨resolver, rfl, parts, same, each.imp fun name part made => ?_⟩
    obtain ⟨unit, made⟩ := made
    exact generateFile_delivers (Resolver.after_resolve resolved) made

section Places

def place (file : Descriptor.File) : String × String :=
  (packageDirectory file.package, fileStem file.name)

def suffixes (config : Config) (file : Descriptor.File) : List String :=
  "_idiom" :: if config.services && !file.services.isEmpty then ["_idiom_grpc"] else []

def paths (config : Config) (file : Descriptor.File) : List String :=
  (suffixes config file).map fun suffix =>
    outputPath (generatedModule suffix file.package file.name config.packagePrefix)

theorem suffixes_sublist (config : Config) (file : Descriptor.File) :
    (suffixes config file).Sublist Name.moduleSuffixes := by
  rw [suffixes]
  split
  · exact List.Sublist.refl _
  · exact (List.nil_sublist _).cons_cons _

theorem nodup_paths (config : Config) (file : Descriptor.File) : (paths config file).Nodup := by
  have listed := suffixes_sublist config file
  have distinct : (suffixes config file).Nodup := listed.nodup (by decide)
  refine distinct.map_on fun first ofFirst second ofSecond same => ?_
  exact ((Name.outputPath_inj (listed.subset ofFirst) (listed.subset ofSecond)).mp same).1

theorem disjoint_paths_iff {f g : Descriptor.File} :
    (paths config f).Disjoint (paths config g) ↔ place f ≠ place g := by
  constructor
  · intro disjoint same
    have ofValues (file : Descriptor.File) : outputPath (generatedModule "_idiom" file.package file.name
        config.packagePrefix) ∈ paths config file := List.mem_cons_self
    obtain ⟨packages, stems⟩ := Prod.mk.inj same
    have isSuffix : "_idiom" ∈ Name.moduleSuffixes := by decide
    have shared := ofValues f
    rw [(Name.outputPath_inj isSuffix isSuffix).mpr ⟨rfl, packages, stems⟩] at shared
    exact disjoint shared (ofValues g)
  · intro different path ofFirst ofSecond
    obtain ⟨first, isFirst, rfl⟩ := List.mem_map.mp ofFirst
    obtain ⟨second, isSecond, same⟩ := List.mem_map.mp ofSecond
    obtain ⟨_, packages, stems⟩ := (Name.outputPath_inj ((suffixes_sublist config f).subset isFirst)
      ((suffixes_sublist config g).subset isSecond)).mp same.symm
    exact different (Prod.ext packages stems)

theorem nodup_flatMap_paths (files : List Descriptor.File) :
    (files.flatMap (paths config)).Nodup ↔ (files.map place).Nodup := by
  rw [List.nodup_flatMap, and_iff_right fun file _ => nodup_paths config file, List.Nodup,
    List.pairwise_map]
  exact List.Pairwise.iff fun _ _ => disjoint_paths_iff

theorem Delivers.paths_eq {file : Descriptor.File} {part : List Output}
    (delivered : Delivers config resolver file part) : part.map (·.path) = paths config file := by
  cases delivered with
  | values _ _ _ _ unasked =>
    have none : suffixes config file = ["_idiom"] := by
      rw [suffixes, if_neg]
      simpa using unasked
    rw [paths, none]
    rfl
  | both _ _ _ _ _ asked some _ =>
    have both : suffixes config file = ["_idiom", "_idiom_grpc"] := by
      rw [suffixes, if_pos]
      simpa [asked] using some
    rw [paths, both]
    rfl

/-- A file of the request that has outputs. -/
structure Asked (config : Config) (request : Descriptor.Request) (file : Descriptor.File) : Prop where
  isFile : file ∈ request.files
  named : file.name ∈ request.filesToGenerate
  wanted : config.isExcluded file.name = false

section Outputs

variable {environment : Option String} {request : Descriptor.Request} {outputs : List Output}
  (configured : Config.ofParameter request.parameter environment = .ok config)
  (fileNames : (request.files.map (·.name)).Nodup)
  (generated : (generate environment request).result = .ok outputs)
include configured fileNames generated

theorem outputs_paths : ∃ asked : List Descriptor.File,
    (∀ file, file ∈ asked ↔ Asked config request file) ∧
      asked.map (·.name) = request.filesToGenerate.filter (!config.isExcluded ·) ∧
      outputs.map (·.path) = asked.flatMap (paths config) := by
  obtain ⟨resolver, _, parts, rfl, each⟩ := generate_eq_ok configured generated
  obtain ⟨asked, isFile, names, same⟩ : ∃ asked : List Descriptor.File,
      (∀ file ∈ asked, file ∈ request.files) ∧
      asked.map (·.name) = request.filesToGenerate.filter (!config.isExcluded ·) ∧
      parts.flatten.map (·.path) = asked.flatMap (paths config) := by
    clear generated
    generalize request.filesToGenerate.filter (!config.isExcluded ·) = names at each
    induction each with
    | nil => exact ⟨[], by simp, rfl, rfl⟩
    | @cons name part names parts first _ ih =>
      obtain ⟨file, isFile, rfl, delivered⟩ := first
      obtain ⟨asked, all, same, rest⟩ := ih
      refine ⟨file :: asked, List.forall_mem_cons.mpr ⟨isFile, all⟩, by rw [List.map_cons, same], ?_⟩
      rw [List.flatten_cons, List.map_append, delivered.paths_eq, rest, List.flatMap_cons]
  refine ⟨asked, fun file => ⟨fun isAsked => ?_, fun isAsked => ?_⟩, names, same⟩
  · have isName : file.name ∈ request.filesToGenerate.filter (!config.isExcluded ·) :=
      names ▸ List.mem_map_of_mem isAsked
    obtain ⟨named, wanted⟩ := List.mem_filter.mp isName
    exact ⟨isFile file isAsked, named, by simpa using wanted⟩
  · have isName : file.name ∈ asked.map (·.name) := by
      rw [names]
      exact List.mem_filter.mpr ⟨isAsked.named, by simp [isAsked.wanted]⟩
    obtain ⟨other, isOther, same⟩ := List.mem_map.mp isName
    rwa [← Resolver.file_eq_of_name fileNames (isFile other isOther) isAsked.isFile same]

theorem valueModule_output_iff (g : Descriptor.File) :
    outputPath (generatedModule "_idiom" g.package g.name config.packagePrefix) ∈
        outputs.map (·.path) ↔
      ∃ h, Asked config request h ∧ place h = place g := by
  obtain ⟨asked, all, _, same⟩ := outputs_paths configured fileNames generated
  have isSuffix : "_idiom" ∈ Name.moduleSuffixes := by decide
  rw [same, List.mem_flatMap]
  constructor
  · rintro ⟨h, isAsked, isPath⟩
    obtain ⟨suffix, ofFile, samePath⟩ := List.mem_map.mp isPath
    obtain ⟨_, packages, stems⟩ :=
      (Name.outputPath_inj ((suffixes_sublist config h).subset ofFile) isSuffix).mp samePath
    exact ⟨h, (all h).mp isAsked, Prod.ext packages stems⟩
  · rintro ⟨h, isAsked, samePlace⟩
    obtain ⟨packages, stems⟩ := Prod.mk.inj samePlace
    refine ⟨h, (all h).mpr isAsked, List.mem_map.mpr ⟨"_idiom", List.mem_cons_self, ?_⟩⟩
    exact (Name.outputPath_inj isSuffix isSuffix).mpr ⟨rfl, packages, stems⟩

end Outputs

end Places

end ProtoBindings.Plugin
