import ProtoBindings.Proofs.CommandLine.Write
import ProtoBindings.Proofs.Plugin.Outputs

namespace ProtoBindings.CommandLine

open Name (components fileStem generatedModule outputPath)
open Plugin (Asked Config generate place)

variable {environment : Option String} {request : Descriptor.Request} {config : Config}
  {outputs : List Output}

section Downward

variable {package file suffix : String} {packagePrefix : Option String}
  (isSuffix : suffix ∈ Name.moduleSuffixes)
  (ofPrefix : ∀ part ∈ components (packagePrefix.getD ""), '/' ∉ part.toList)
  (ofPackage : '/' ∉ package.toList)
include isSuffix ofPrefix ofPackage

theorem isDownward_parts : IsDownward (components (packagePrefix.getD "") ++ components package ++
    [fileStem file ++ suffix ++ ".py"]) := by
  obtain ⟨_, noSlash⟩ := Name.plain_of_moduleSuffix suffix isSuffix
  have component {path part : String} (isComponent : part ∈ components path)
      (whole : '/' ∉ part.toList) : IsStep part ∧ part ≠ ".." := by
    have noDot := Name.dot_not_mem_component isComponent
    refine ⟨⟨Name.component_ne_empty isComponent, whole, ?_⟩, ?_⟩
    · rintro rfl
      exact noDot (by decide)
    · rintro rfl
      exact noDot (by decide)
  have last : IsStep (fileStem file ++ suffix ++ ".py") ∧ fileStem file ++ suffix ++ ".py" ≠ ".." := by
    have unlike : ∀ other ∈ ["", ".", ".."], fileStem file ++ suffix ++ ".py" ≠ other := by
      intro other isOther same
      have ending : 'y' ∈ other.toList := by simp [← same]
      have none : ∀ other ∈ ["", ".", ".."], 'y' ∉ other.toList := by decide
      exact none other isOther ending
    refine ⟨⟨unlike "" (by simp), ?_, unlike "." (by simp)⟩, unlike ".." (by simp)⟩
    simp [Name.slash_not_mem_fileStem, noSlash]
  have all : ∀ part ∈ components (packagePrefix.getD "") ++ components package ++
      [fileStem file ++ suffix ++ ".py"], IsStep part ∧ part ≠ ".." := by
    intro part member
    rcases List.mem_append.mp member with member | member
    · rcases List.mem_append.mp member with member | member
      · exact component member (ofPrefix part member)
      · exact component member (Name.not_mem_component ofPackage member)
    · rw [List.mem_singleton.mp member]
      exact last
  exact ⟨fun part member => (all part member).1, fun part member => (all part member).2, _, _, rfl⟩

theorem isDownward_path : ∃ parts, IsDownward parts ∧
    outputPath (generatedModule suffix package file packagePrefix) = "/".intercalate parts :=
  ⟨_, isDownward_parts isSuffix ofPrefix ofPackage,
    Name.outputPath_generatedModule (Name.plain_of_moduleSuffix suffix isSuffix).1 package file packagePrefix⟩

end Downward

/-- The outputs of a request have distinct paths exactly if no two of the files that have outputs agree
    in directory and stem. If they have, and no package has a slash in it, then all contents are on
    disk once the outputs are written without error. -/
theorem outputs_apart_iff
    (configured : Config.ofParameter request.parameter environment = .ok config)
    (fileNames : (request.files.map (·.name)).Nodup) (askedNames : request.filesToGenerate.Nodup)
    (generated : (generate environment request).result = .ok outputs) :
    ((outputs.map (·.path)).Nodup ↔
      ∀ f g, Asked config request f → Asked config request g → place f = place g → f = g) ∧
    ((outputs.map (·.path)).Nodup → (∀ f, Asked config request f → '/' ∉ f.package.toList) →
      ∀ out tree final written, writeOutputs (.ofText out) tree outputs = (final, .ok written) →
        ∀ o ∈ outputs, final.read (outputFile (.ofText out) o) = .ok (Text.Utf8.encode o.content)) := by
  obtain ⟨asked, all, names, paths⟩ := Plugin.outputs_paths configured fileNames generated
  constructor
  · have distinct : asked.Nodup := by
      have askedOnce : (asked.map (·.name)).Nodup := names ▸ askedNames.filter _
      exact askedOnce.of_map
    rw [paths, Plugin.nodup_flatMap_paths, List.nodup_map_iff_inj_on distinct]
    exact ⟨fun apart f g isF isG => apart f ((all f).mpr isF) g ((all g).mpr isG),
      fun apart f isF g isG => apart f g ((all f).mp isF) ((all g).mp isG)⟩
  · intro distinct plain out tree final written done
    have ofPrefix : ∀ part ∈ components (config.packagePrefix.getD ""), '/' ∉ part.toList := by
      cases given : config.packagePrefix with
      | none => exact fun part => Name.not_mem_component (by decide)
      | some path =>
        exact Name.slash_not_mem_modulePath (Plugin.prefix_isModulePath configured given)
    refine writeOutputs_reads_of_distinct (fun o isOutput => ?_) distinct done
    have isPath : o.path ∈ asked.flatMap (Plugin.paths config) :=
      paths ▸ List.mem_map_of_mem isOutput
    obtain ⟨file, isAsked, ofFile⟩ := List.mem_flatMap.mp isPath
    obtain ⟨suffix, isSuffix, same⟩ := List.mem_map.mp ofFile
    rw [← same]
    exact isDownward_path ((Plugin.suffixes_sublist config file).subset isSuffix) ofPrefix
      (plain file ((all file).mp isAsked))

section Examples

def box (file package : String) : Descriptor.File where
  name := file
  package := package
  messages := [{ name := "Box" }]

def boxes (files : List Descriptor.File) : Descriptor.Request := ⟨files.map (·.name), "", files⟩

theorem boxes_kept : ∃ outputs, Config.ofParameter "" none = .ok {} ∧
    (generate none (boxes [box "left/x.proto" "", box "right/y.proto" ""])).result = .ok outputs ∧
    (outputs.map (·.path)).Nodup ∧
    ∃ final written, writeOutputs (.ofText "") {} outputs = (final, .ok written) ∧
      ∀ o ∈ outputs, final.read (outputFile (.ofText "") o) = .ok (Text.Utf8.encode o.content) := by
  have configured : Config.ofParameter "" none = .ok {} := rfl
  obtain ⟨outputs, generated, isWritten⟩ : ∃ outputs,
      (generate none (boxes [box "left/x.proto" "", box "right/y.proto" ""])).result = .ok outputs ∧
      (writeOutputs (.ofText "") {} outputs).2.toOption.isSome := by decide +kernel
  obtain ⟨written, result⟩ := Result.exists_of_isSome isWritten
  have files : ∀ f, Asked {} (boxes [box "left/x.proto" "", box "right/y.proto" ""]) f →
      f = box "left/x.proto" "" ∨ f = box "right/y.proto" "" := fun f asked => by
    simpa [boxes] using asked.isFile
  have stems : fileStem "left/x.proto" ≠ fileStem "right/y.proto" := by decide +kernel
  obtain ⟨distinct, kept⟩ := outputs_apart_iff configured (by decide) (by decide) generated
  have apart := distinct.mpr fun f g isF isG same => by
    have stem : fileStem f.name = fileStem g.name := congrArg Prod.snd same
    rcases files f isF with rfl | rfl <;> rcases files g isG with rfl | rfl
    · rfl
    · exact absurd stem stems
    · exact absurd stem.symm stems
    · rfl
  have plain : ∀ f, Asked {} (boxes [box "left/x.proto" "", box "right/y.proto" ""]) f →
      '/' ∉ f.package.toList := fun f asked => by
    rcases files f asked with rfl | rfl <;> decide
  refine ⟨outputs, configured, generated, apart, (writeOutputs (.ofText "") {} outputs).1, written,
    Prod.ext rfl result, ?_⟩
  exact kept apart plain "" {} _ written (Prod.ext rfl result)

def sameBaseName : Descriptor.Request := boxes [box "left/x.proto" "p", box "right/x.proto" "p"]

def slashPackages : Descriptor.Request := boxes [box "one/x.proto" "a/b", box "two/x.proto" "a//b"]

/-- Files of one base name in different directories have one output path if their packages are the
    same. Packages with slashes may differ in nothing but empty parts of the path, and outputs are not
    written at all where the directory for them is a file. -/
theorem boxes_overwritten :
    ((sameBaseName.files.map (·.name)).Nodup ∧ sameBaseName.filesToGenerate.Nodup ∧
      ∃ outputs, (generate none sameBaseName).result = .ok outputs ∧
        outputs.map (·.path) = ["p/x_idiom.py", "p/x_idiom.py"]) ∧
    (∃ outputs, (generate none slashPackages).result = .ok outputs ∧
      outputs.map (·.path) = ["a/b/x_idiom.py", "a//b/x_idiom.py"] ∧
      outputs.map (outputFile (.ofText "out")) = ["out/a/b/x_idiom.py", "out/a/b/x_idiom.py"]) ∧
    ∃ outputs, (generate none (boxes [box "x.proto" ""])).result = .ok outputs ∧
      (writeOutputs (.ofText "out") ⟨[(["out"], .file [])]⟩ outputs).2 = .error (.exists "out") :=
  ⟨⟨by decide, by decide, by decide +kernel⟩, by decide +kernel, by decide +kernel⟩

end Examples

end ProtoBindings.CommandLine
