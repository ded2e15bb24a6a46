import Mathlib.Data.List.TakeWhile
import ProtoBindings.Name.Module
import ProtoBindings.Proofs.Name.Percent
import ProtoBindings.Proofs.Name.Word

namespace ProtoBindings

namespace Text

theorem splitOn_intercalate {separator : Char} {parts : List String}
    (apart : ∀ part ∈ parts, separator ∉ part.toList) (nonempty : parts ≠ []) :
    splitOn separator ((String.singleton separator).intercalate parts) = parts := by
  have pieces : String.ofList ∘ String.toList = id := funext fun s => String.ofList_toList
  have lists : ∀ cs ∈ parts.map String.toList, separator ∉ cs := by
    intro cs member
    obtain ⟨part, isPart, rfl⟩ := List.mem_map.mp member
    exact apart part isPart
  rw [splitOn, String.toList_intercalate, String.toList_singleton,
    List.splitOn_intercalate separator lists (by simpa using nonempty), List.map_map, pieces,
    List.map_id]

theorem not_mem_of_mem_splitOn {separator : Char} {cs piece : List Char}
    (isPiece : piece ∈ cs.splitOn separator) : separator ∉ piece := by
  induction cs generalizing piece with
  | nil =>
    rw [List.mem_singleton.mp isPiece]
    exact List.not_mem_nil
  | cons c rest ih =>
    rw [List.splitOn_cons_eq_if_modifyHead] at isPiece
    obtain ⟨first, others, split⟩ := List.exists_cons_of_ne_nil (List.splitOn_ne_nil separator rest)
    rw [split] at isPiece ih
    split at isPiece
    · rcases List.mem_cons.mp isPiece with rfl | later
      · exact List.not_mem_nil
      · exact ih later
    · rename_i other
      rcases List.mem_cons.mp isPiece with rfl | later
      · rw [List.mem_cons, not_or]
        exact ⟨fun same => other (beq_iff_eq.mpr same.symm), ih List.mem_cons_self⟩
      · exact ih (List.mem_cons_of_mem _ later)

theorem mem_of_mem_splitOn {separator c : Char} {cs piece : List Char}
    (isPiece : piece ∈ cs.splitOn separator) (member : c ∈ piece) : c ∈ cs := by
  induction cs generalizing piece with
  | nil =>
    rw [List.mem_singleton.mp isPiece] at member
    exact member
  | cons first rest ih =>
    rw [List.splitOn_cons_eq_if_modifyHead] at isPiece
    obtain ⟨next, others, split⟩ := List.exists_cons_of_ne_nil (List.splitOn_ne_nil separator rest)
    rw [split] at isPiece ih
    split at isPiece
    · rcases List.mem_cons.mp isPiece with rfl | later
      · cases member
      · exact List.mem_cons_of_mem _ (ih later member)
    · rcases List.mem_cons.mp isPiece with rfl | later
      · rcases List.mem_cons.mp member with rfl | member
        · exact List.mem_cons_self
        · exact List.mem_cons_of_mem _ (ih List.mem_cons_self member)
      · exact List.mem_cons_of_mem _ (ih (List.mem_cons_of_mem _ later) member)

@[simp] theorem replaceChar_append (old new : Char) (s t : String) :
    replaceChar old new (s ++ t) = replaceChar old new s ++ replaceChar old new t := by
  simp [replaceChar, ← String.toList_inj]

theorem replaceChar_of_not_mem {old new : Char} {s : String} (absent : old ∉ s.toList) :
    replaceChar old new s = s := by
  rw [← String.toList_inj, replaceChar, String.toList_map]
  refine (List.map_congr_left fun c member => ?_).trans (List.map_id _)
  have other : c ≠ old := fun same => absent (same ▸ member)
  rw [if_neg other]
  rfl

theorem not_mem_replaceChar {old new : Char} (other : new ≠ old) (s : String) :
    old ∉ (replaceChar old new s).toList := by
  rw [replaceChar, String.toList_map, List.mem_map]
  rintro ⟨c, _, same⟩
  split at same
  · exact other same
  · contradiction

theorem mem_replaceChar {old new c : Char} {s : String}
    (member : c ∈ (replaceChar old new s).toList) : c ∈ s.toList ∨ c = new := by
  rw [replaceChar, String.toList_map, List.mem_map] at member
  obtain ⟨before, isBefore, rfl⟩ := member
  split
  · exact .inr rfl
  · exact .inl isBefore

theorem mem_dropEnding {ending s : String} {c : Char} (member : c ∈ (dropEnding ending s).toList) :
    c ∈ s.toList := by
  rw [dropEnding] at member
  split at member
  · rw [String.toList_ofList] at member
    exact List.mem_of_mem_take member
  · exact member

end Text

namespace Name

def directory : List String → String
  | [] => ""
  | part :: rest => part ++ "/" ++ directory rest

def packageDirectory (package : String) : String := directory (components package)

theorem directory_append (first second : List String) :
    directory (first ++ second) = directory first ++ directory second := by
  induction first with
  | nil => rw [List.nil_append, directory, String.empty_append]
  | cons part rest ih => simp only [List.cons_append, directory, ih, String.append_assoc]

theorem intercalate_slash (parts : List String) (name : String) :
    "/".intercalate (parts ++ [name]) = directory parts ++ name := by
  induction parts with
  | nil => simp [directory]
  | cons part rest ih =>
    obtain ⟨next, others, split⟩ := List.exists_cons_of_ne_nil (List.append_ne_nil_of_right_ne_nil rest
      (List.cons_ne_nil name []))
    rw [List.cons_append, split, String.intercalate_cons_cons, ← split, ih, directory]
    simp only [String.append_assoc]

theorem intercalate_replaceChar {old : Char} (new : Char) {parts : List String}
    (apart : ∀ part ∈ parts, old ∉ part.toList) :
    Text.replaceChar old new ((String.singleton old).intercalate parts) =
      (String.singleton new).intercalate parts := by
  have separator : Text.replaceChar old new (String.singleton old) = String.singleton new := by
    simp [Text.replaceChar, ← String.toList_inj]
  induction parts with
  | nil => exact Text.replaceChar_of_not_mem (by simp)
  | cons part rest ih =>
    have first : Text.replaceChar old new part = part :=
      Text.replaceChar_of_not_mem (apart part List.mem_cons_self)
    have later := ih fun other member => apart other (List.mem_cons_of_mem _ member)
    cases rest with
    | nil => simpa using first
    | cons next others =>
      rw [String.intercalate_cons_cons, Text.replaceChar_append, Text.replaceChar_append, first,
        separator, later, String.intercalate_cons_cons]

theorem dot_not_mem_component {path part : String} (isComponent : part ∈ components path) :
    '.' ∉ part.toList := by
  obtain ⟨cs, isPiece, rfl⟩ := List.mem_map.mp (List.mem_filter.mp isComponent).1
  rw [String.toList_ofList]
  exact Text.not_mem_of_mem_splitOn isPiece

theorem component_ne_empty {path part : String} (isComponent : part ∈ components path) : part ≠ "" := by
  simpa using (List.mem_filter.mp isComponent).2

theorem not_mem_component {path part : String} {c : Char} (free : c ∉ path.toList)
    (isComponent : part ∈ components path) : c ∉ part.toList := by
  obtain ⟨cs, isPiece, rfl⟩ := List.mem_map.mp (List.mem_filter.mp isComponent).1
  rw [String.toList_ofList]
  exact fun member => free (Text.mem_of_mem_splitOn isPiece member)

theorem slash_not_mem_modulePath {path : String} (identifiers : Plugin.Config.isModulePath path = true) :
    ∀ part ∈ components path, '/' ∉ part.toList := by
  have noStart : Unicode.identifierStart.contains '/' = false := by decide +kernel
  have noOther : Unicode.identifierContinue.contains '/' = false := by decide +kernel
  intro part member
  have each := List.all_eq_true.mp identifiers part (List.mem_filter.mp member).1
  exact not_mem_of_identifier noStart noOther each

theorem dot_not_mem_fileStem (file : String) : '.' ∉ (fileStem file).toList :=
  Text.not_mem_replaceChar (by decide) _

theorem slash_not_mem_fileStem (file : String) : '/' ∉ (fileStem file).toList := by
  intro member
  rcases Text.mem_replaceChar member with member | same
  · rcases Text.mem_replaceChar member with member | same
    · have inName := Text.mem_dropEnding member
      rw [baseName, String.toList_ofList, List.mem_reverse] at inName
      simpa using List.mem_takeWhile_imp inName
    · exact absurd same (by decide)
  · exact absurd same (by decide)

theorem baseName_directory_append (parts : List String) {name : String} (plain : '/' ∉ name.toList) :
    baseName (directory parts ++ name) = name := by
  have all : ∀ c ∈ name.toList.reverse, decide (c ≠ '/') = true := by
    intro c member
    exact decide_eq_true fun same => plain (same ▸ List.mem_reverse.mp member)
  have stops : (directory parts).toList.reverse.takeWhile (fun c => decide (c ≠ '/')) = [] := by
    rcases List.eq_nil_or_concat parts with rfl | ⟨rest, last, rfl⟩
    · rfl
    · simp [directory_append, directory]
  rw [← String.toList_inj, baseName, String.toList_ofList, String.toList_append, List.reverse_append,
    List.takeWhile_append_of_pos all, stops, List.append_nil, List.reverse_reverse]

section Generated

variable {suffix : String} (plainSuffix : '.' ∉ suffix.toList)
include plainSuffix

theorem outputPath_generatedModule (package file : String) (packagePrefix : Option String) :
    outputPath (generatedModule suffix package file packagePrefix) =
      "/".intercalate (components (packagePrefix.getD "") ++ components package ++
        [fileStem file ++ suffix ++ ".py"]) := by
  have apart : ∀ part ∈ components (packagePrefix.getD "") ++ components package ++
      [fileStem file ++ suffix], '.' ∉ part.toList := by
    intro part member
    rcases List.mem_append.mp member with member | member
    · rcases List.mem_append.mp member with member | member
      · exact dot_not_mem_component member
      · exact dot_not_mem_component member
    · rw [List.mem_singleton.mp member, String.toList_append, List.mem_append, not_or]
      exact ⟨dot_not_mem_fileStem file, plainSuffix⟩
  have replaced := intercalate_replaceChar '/' apart
  have whole : outputPath (generatedModule suffix package file packagePrefix) =
      "/".intercalate (components (packagePrefix.getD "") ++ components package ++
        [fileStem file ++ suffix]) ++ ".py" := congrArg (· ++ ".py") replaced
  rw [whole, intercalate_slash, intercalate_slash, String.append_assoc]

theorem outputPath_eq (package file : String) (packagePrefix : Option String) :
    outputPath (generatedModule suffix package file packagePrefix) =
      directory (components (packagePrefix.getD "")) ++ packageDirectory package ++
        (fileStem file ++ suffix ++ ".py") := by
  rw [outputPath_generatedModule plainSuffix, intercalate_slash, directory_append]
  rfl

end Generated

def moduleSuffixes : List String := ["_idiom", "_idiom_grpc"]

theorem plain_of_moduleSuffix :
    ∀ suffix ∈ moduleSuffixes, '.' ∉ suffix.toList ∧ '/' ∉ suffix.toList := by decide

theorem apart_moduleSuffixes : ∀ first ∈ moduleSuffixes, ∀ second ∈ moduleSuffixes,
    first = second ∨ Apart first second := by decide

/-- Two modules of one prefix are written to one path exactly if their packages have one directory,
    their files one stem, and they are of one kind. -/
theorem outputPath_inj {first second : String} (ofFirst : first ∈ moduleSuffixes)
    (ofSecond : second ∈ moduleSuffixes) {package file package' file' : String}
    {packagePrefix : Option String} :
    outputPath (generatedModule first package file packagePrefix) =
        outputPath (generatedModule second package' file' packagePrefix) ↔
      first = second ∧ packageDirectory package = packageDirectory package' ∧
        fileStem file = fileStem file' := by
  have name {suffix : String} (isSuffix : suffix ∈ moduleSuffixes) (file : String) :
      '/' ∉ (fileStem file ++ suffix ++ ".py").toList := by
    simp [slash_not_mem_fileStem, plain_of_moduleSuffix suffix isSuffix]
  rw [outputPath_eq (plain_of_moduleSuffix first ofFirst).1,
    outputPath_eq (plain_of_moduleSuffix second ofSecond).1]
  constructor
  · intro same
    have names := congrArg baseName same
    rw [packageDirectory, packageDirectory, ← directory_append, ← directory_append,
      baseName_directory_append _ (name ofFirst file),
      baseName_directory_append _ (name ofSecond file')] at names
    rw [names, String.append_left_inj, String.append_right_inj] at same
    rw [String.append_left_inj] at names
    rcases apart_moduleSuffixes first ofFirst second ofSecond with rfl | apart
    · exact ⟨rfl, same, (String.append_left_inj _).mp names⟩
    · exact absurd names (apart.append_ne _ _)
  · rintro ⟨rfl, packages, stems⟩
    rw [packages, stems]

end Name

end ProtoBindings
