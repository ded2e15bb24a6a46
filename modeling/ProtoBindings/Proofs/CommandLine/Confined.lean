import ProtoBindings.Proofs.CommandLine.Outputs

namespace ProtoBindings

namespace Text

theorem dropEnding_append (ending s : String) : dropEnding ending (s ++ ending) = s := by
  have ends : endsWith (s ++ ending) ending = true := by
    rw [endsWith, String.toList_append, List.isSuffixOf_iff_suffix]
    exact List.suffix_append _ _
  rw [dropEnding, if_pos ends, String.toList_append, List.length_append, Nat.add_sub_cancel,
    List.take_left, String.ofList_toList]

theorem eq_dropEnding_append {ending s : String} (ends : endsWith s ending = true) :
    s = dropEnding ending s ++ ending := by
  rw [endsWith, List.isSuffixOf_iff_suffix] at ends
  obtain ⟨front, split⟩ := ends
  have whole : s = String.ofList front ++ ending := by
    rw [← String.toList_inj, String.toList_append, String.toList_ofList, split]
  rw [whole, dropEnding_append]

theorem empty_mem_splitOn {separator : Char} {s : String}
    (starts : startsWith s (String.singleton separator) = true) : "" ∈ splitOn separator s := by
  rw [startsWith, String.toList_singleton, List.isPrefixOf_iff_prefix] at starts
  obtain ⟨rest, split⟩ := starts
  rw [splitOn, ← split, List.singleton_append, List.splitOn_cons_eq_if_modifyHead, if_pos (by simp)]
  exact List.mem_cons_self

end Text

namespace Name

/-- The name of a file, without the directories in front of it and without its ending, and with underscores
    for hyphens and dots. -/
def IsStem (file stem : String) : Prop :=
  ∃ directory base name : String, file = directory ++ base ∧
    (directory = "" ∨ Text.endsWith directory "/" = true) ∧ '/' ∉ base.toList ∧
    (base = name ++ ".proto" ∨ base = name ∧ Text.endsWith base ".proto" = false) ∧
    stem = name.map fun c => if c = '-' ∨ c = '.' then '_' else c

theorem exists_directory (file : String) : ∃ directory, file = directory ++ baseName file ∧
    (directory = "" ∨ Text.endsWith directory "/" = true) ∧ '/' ∉ (baseName file).toList := by
  refine ⟨String.ofList (file.toList.reverse.dropWhile (· ≠ '/')).reverse, ?_, ?_, ?_⟩
  · rw [← String.toList_inj, baseName, String.toList_append, String.toList_ofList, String.toList_ofList,
      ← List.reverse_append, List.takeWhile_append_dropWhile, List.reverse_reverse]
  · have stops := List.head?_dropWhile_not (fun c => decide (c ≠ '/')) file.toList.reverse
    cases rest : file.toList.reverse.dropWhile fun c => decide (c ≠ '/') with
    | nil => exact .inl rfl
    | cons c rest' =>
      rw [rest, List.head?_cons] at stops
      have slash : c = '/' := by simpa using stops
      refine .inr ?_
      have ending : (String.ofList (c :: rest').reverse).toList = rest'.reverse ++ "/".toList := by
        rw [String.toList_ofList, List.reverse_cons, slash]
        rfl
      rw [Text.endsWith, ending, List.isSuffixOf_iff_suffix]
      exact List.suffix_append _ _
  · rw [baseName, String.toList_ofList, List.mem_reverse]
    exact fun member => by simpa using List.mem_takeWhile_imp member

theorem isStem_fileStem (file : String) : IsStem file (fileStem file) := by
  obtain ⟨directory, split, ends, plain⟩ := exists_directory file
  refine ⟨directory, baseName file, Text.dropEnding ".proto" (baseName file), split, ends, plain, ?_, ?_⟩
  · by_cases hasEnding : Text.endsWith (baseName file) ".proto" = true
    · exact .inl (Text.eq_dropEnding_append hasEnding)
    · refine .inr ⟨?_, by simpa using hasEnding⟩
      rw [Text.dropEnding, if_neg hasEnding]
  · rw [fileStem, ← String.toList_inj]
    simp only [Text.replaceChar, String.toList_map, List.map_map]
    refine List.map_congr_left fun c _ => ?_
    by_cases hyphen : c = '-'
    · simp [hyphen]
    · simp [hyphen]

end Name

namespace CommandLine

open Name (components fileStem generatedModule outputPath)
open Plugin (Config)
open Schema (FileUnit TypeRef)

def moduleOfPath (path : String) : String := Text.replaceChar '/' '.' (Text.dropEnding ".py" path)

/-- An output where its module is: below the directories of the prefix and of the package. -/
structure Placed (config : Config) (unit : FileUnit) (suffix : String) (o : Output) : Prop where
  relative : Text.startsWith o.path "/" = false
  descends : ∀ segment ∈ Text.splitOn '/' o.path, segment ∉ ["", ".", ".."]
  segments : ∃ stem, Name.IsStem unit.name stem ∧ Text.splitOn '/' o.path =
    (config.packagePrefix.map (Text.splitOn '.')).getD [] ++ components unit.package ++
      [stem ++ suffix ++ ".py"]
  below : ∀ out, (FilePath.ofText out).join (.ofText o.path) =
    ⟨(FilePath.ofText out).root, (FilePath.ofText out).parts ++ Text.splitOn '/' o.path⟩
  named : moduleOfPath o.path = generatedModule suffix unit.package unit.name config.packagePrefix

section Placed

variable {config : Config} {unit : FileUnit} (valid : config.validate = .ok config)
  (plain : '/' ∉ unit.package.toList)

theorem components_eq_splitOn {path : String} (identifiers : Config.isModulePath path = true) :
    components path = Text.splitOn '.' path := by
  refine List.filter_eq_self.mpr fun part member => decide_eq_true ?_
  rintro rfl
  have none : Unicode.isIdentifier "" = false := rfl
  rw [List.all_eq_true.mp identifiers "" member] at none
  cases none

include valid

theorem prefix_components : components (config.packagePrefix.getD "") =
    (config.packagePrefix.map (Text.splitOn '.')).getD [] := by
  cases given : config.packagePrefix with
  | none => decide
  | some path => exact components_eq_splitOn (Plugin.isModulePath_of_validate valid given)

theorem prefix_slashFree : ∀ part ∈ components (config.packagePrefix.getD ""), '/' ∉ part.toList := by
  cases given : config.packagePrefix with
  | none => exact fun part => Name.not_mem_component (by decide)
  | some path => exact Name.slash_not_mem_modulePath (Plugin.isModulePath_of_validate valid given)

include plain

section Path

variable {suffix : String} (isSuffix : suffix ∈ Name.moduleSuffixes)
include isSuffix

theorem isDownward_output : IsDownward (components (config.packagePrefix.getD "") ++
    components unit.package ++ [fileStem unit.name ++ suffix ++ ".py"]) :=
  isDownward_parts isSuffix (prefix_slashFree valid) plain

theorem splitOn_outputPath :
    Text.splitOn '/' (outputPath (generatedModule suffix unit.package unit.name config.packagePrefix)) =
      components (config.packagePrefix.getD "") ++ components unit.package ++
        [fileStem unit.name ++ suffix ++ ".py"] := by
  have downward := isDownward_output valid plain isSuffix
  rw [Name.outputPath_generatedModule (Name.plain_of_moduleSuffix suffix isSuffix).1]
  exact Text.splitOn_intercalate (fun part member => (downward.steps part member).whole)
    downward.nonempty

theorem moduleOfPath_outputPath :
    moduleOfPath (outputPath (generatedModule suffix unit.package unit.name config.packagePrefix)) =
      generatedModule suffix unit.package unit.name config.packagePrefix := by
  obtain ⟨noDot, noSlash⟩ := Name.plain_of_moduleSuffix suffix isSuffix
  have apart : ∀ part ∈ components (config.packagePrefix.getD "") ++ components unit.package ++
      [fileStem unit.name ++ suffix], '/' ∉ part.toList := by
    intro part member
    rcases List.mem_append.mp member with above | last
    · have step := (isDownward_output valid plain isSuffix).steps part (List.mem_append_left _ above)
      exact step.whole
    · rw [List.mem_singleton.mp last]
      simp [Name.slash_not_mem_fileStem, noSlash]
  rw [moduleOfPath, Name.outputPath_generatedModule noDot, Name.intercalate_slash, ← String.append_assoc,
    ← Name.intercalate_slash, Text.dropEnding_append]
  exact Name.intercalate_replaceChar '.' apart

theorem placed {content : String} : Placed config unit suffix
    ⟨outputPath (generatedModule suffix unit.package unit.name config.packagePrefix), content⟩ := by
  have downward := isDownward_output valid plain isSuffix
  have split := splitOn_outputPath valid plain isSuffix
  have descends : ∀ segment ∈ Text.splitOn '/' (outputPath (generatedModule suffix unit.package
      unit.name config.packagePrefix)), segment ∉ ["", ".", ".."] := by
    intro segment isSegment
    rw [split] at isSegment
    have step := downward.steps segment isSegment
    simp [step.nonempty, step.notDot, downward.notAbove segment isSegment]
  constructor
  · refine Bool.eq_false_iff.mpr fun starts => ?_
    exact descends "" (Text.empty_mem_splitOn starts) (by simp)
  · exact descends
  · exact ⟨fileStem unit.name, Name.isStem_fileStem unit.name, by rw [split, prefix_components valid]⟩
  · intro out
    rw [split, Name.outputPath_generatedModule (Name.plain_of_moduleSuffix suffix isSuffix).1]
    exact join_ofText downward
  · exact moduleOfPath_outputPath valid plain isSuffix

end Path

/-- The outputs for a unit are its value module and perhaps its service module. Their paths are relative
    and go down from the output directory, by the components of the prefix and of the package, to a name
    made of that of the file. Other modules import the value module under the name that its path has with
    dots. -/
theorem outputs_confined {enums : Mapping.EnumIndex} {outputs : List Output}
    (made : Output.ofUnit ⟨config.packagePrefix, config.services⟩ enums unit = .ok outputs) :
    ∃ o services, outputs = o :: services ∧ Placed config unit "_idiom" o ∧
      (∀ s ∈ services, Placed config unit "_idiom_grpc" s) ∧
      ∀ (scope : Scope) (ref : TypeRef) (id : String), scope.packagePrefix = config.packagePrefix →
        ref.file = unit.name → ref.package = unit.package → scope.isLocal ref = false →
        (scope.generatedName ref id).imports = [.ofModule (moduleOfPath o.path)] := by
  have isValue : "_idiom" ∈ Name.moduleSuffixes := by decide
  have isService : "_idiom_grpc" ∈ Name.moduleSuffixes := by decide
  have imported (scope : Scope) (ref : TypeRef) (id : String)
      (samePrefix : scope.packagePrefix = config.packagePrefix) (ofFile : ref.file = unit.name)
      (ofPackage : ref.package = unit.package) (foreign : scope.isLocal ref = false) :
      (scope.generatedName ref id).imports = [.ofModule (moduleOfPath
        (Output.valuePath ⟨config.packagePrefix, config.services⟩ unit))] := by
    have named : moduleOfPath (Output.valuePath ⟨config.packagePrefix, config.services⟩ unit) =
        generatedModule "_idiom" unit.package unit.name config.packagePrefix :=
      moduleOfPath_outputPath valid plain isValue
    rw [named, Scope.generatedName, if_neg (by simp [foreign]), Scope.moduleOf, Name.valueModule,
      samePrefix, ofFile, ofPackage]
  simp only [Output.ofUnit, Result.bind_eq_ok] at made
  obtain ⟨content, _, made⟩ := made
  split at made
  · simp only [Result.bind_eq_ok, Result.pure_eq_ok] at made
    obtain ⟨service, _, rfl⟩ := made
    refine ⟨_, _, rfl, placed valid plain isValue, ?_, imported⟩
    exact List.forall_mem_singleton.mpr (placed valid plain isService)
  · cases made
    exact ⟨_, _, rfl, placed valid plain isValue, List.forall_mem_nil _, imported⟩

end Placed

def dottedUnit : FileUnit where
  name := "/a/../we-ird..proto"
  package := "..acme..v1."
  dependencies := []
  messages := []
  enums := []
  services := [⟨"Desk", "acme.v1.Desk", []⟩]

theorem dotted_confined : ∃ config outputs, Config.validate config = .ok config ∧
    '/' ∉ dottedUnit.package.toList ∧
    Output.ofUnit ⟨config.packagePrefix, config.services⟩ [] dottedUnit = .ok outputs ∧
    outputs.map (·.path) =
      ["gen/lib/acme/v1/we_ird__idiom.py", "gen/lib/acme/v1/we_ird__idiom_grpc.py"] ∧
    (∃ o services, outputs = o :: services ∧ Placed config dottedUnit "_idiom" o ∧
      ∀ s ∈ services, Placed config dottedUnit "_idiom_grpc" s) ∧
    (Scope.generatedName ⟨"b.proto", "b", config.packagePrefix, true⟩
      ⟨"acme.v1.Box", dottedUnit.name, dottedUnit.package, ["Box"]⟩ "Box").imports =
      [.ofModule "gen.lib.acme.v1.we_ird__idiom"] := by
  let config : Config := { packagePrefix := some "gen.lib" }
  have valid : config.validate = .ok config := by decide +kernel
  have plain : '/' ∉ dottedUnit.package.toList := by decide
  obtain ⟨outputs, made, paths⟩ : ∃ outputs,
      Output.ofUnit ⟨config.packagePrefix, config.services⟩ [] dottedUnit = .ok outputs ∧
      outputs.map (·.path) =
        ["gen/lib/acme/v1/we_ird__idiom.py", "gen/lib/acme/v1/we_ird__idiom_grpc.py"] := by
    refine ⟨_, rfl, ?_⟩
    decide +kernel
  obtain ⟨o, services, rfl, values, bindings, imported⟩ := outputs_confined valid plain made
  have path : o.path = "gen/lib/acme/v1/we_ird__idiom.py" := (List.cons.inj paths).1
  have dotted : moduleOfPath o.path = "gen.lib.acme.v1.we_ird__idiom" := by
    rw [path]
    decide +kernel
  refine ⟨config, _, valid, plain, made, paths, ⟨o, services, rfl, values, bindings⟩, ?_⟩
  rw [← dotted]
  exact imported _ _ _ rfl rfl rfl (by decide)

end CommandLine

end ProtoBindings
