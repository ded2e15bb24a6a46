import ProtoBindings.Proofs.Name.Path
import ProtoBindings.Proofs.Name.Reserved
import ProtoBindings.Proofs.Name.Word

namespace ProtoBindings

namespace Name

def KeywordFree (names : List String) : Prop := ∀ name ∈ names, isKeyword name = false

instance : DecidablePred KeywordFree := fun names =>
  inferInstanceAs (Decidable (∀ name ∈ names, isKeyword name = false))

section KeywordFree

variable {α : Type} {name : String} {first second names : List String}

@[simp] theorem keywordFree_nil : KeywordFree [] := List.forall_mem_nil _

@[simp] theorem keywordFree_cons :
    KeywordFree (name :: names) ↔ isKeyword name = false ∧ KeywordFree names :=
  List.forall_mem_cons

@[simp] theorem keywordFree_append :
    KeywordFree (first ++ second) ↔ KeywordFree first ∧ KeywordFree second :=
  List.forall_mem_append

@[simp] theorem keywordFree_flatMap {items : List α} {f : α → List String} :
    KeywordFree (items.flatMap f) ↔ ∀ item ∈ items, KeywordFree (f item) := by
  simp only [KeywordFree, List.mem_flatMap, forall_exists_index, and_imp]
  exact ⟨fun all item isItem name isName => all name item isItem isName,
    fun all name item isItem isName => all item isItem name isName⟩

@[simp] theorem keywordFree_map {items : List α} {f : α → String} :
    KeywordFree (items.map f) ↔ ∀ item ∈ items, isKeyword (f item) = false :=
  List.forall_mem_map

end KeywordFree

section Keyword

theorem mem_of_isKeyword {name : String} (keyword : isKeyword name = true) : name ∈ keywords := by
  simpa [isKeyword] using keyword

theorem isKeyword_of_isReserved {name : String} (free : isReserved name = false) :
    isKeyword name = false := (Bool.or_eq_false_iff.mp free).1

@[simp] theorem isKeyword_escape (name : String) : isKeyword (escape name) = false :=
  isKeyword_of_isReserved (isReserved_escape name)

theorem isKeyword_of_underscore {name : String} (member : '_' ∈ name.toList) :
    isKeyword name = false := by
  have none : ∀ known ∈ keywords, '_' ∉ known.toList := by decide
  exact Bool.eq_false_iff.mpr fun keyword => none name (mem_of_isKeyword keyword) member

@[simp] theorem isKeyword_underscore_append (rest : String) : isKeyword ("_" ++ rest) = false :=
  isKeyword_of_underscore (by simp)

/-- Behind the first character a keyword has small letters only. -/
theorem isKeyword_append {s t : String} (nonempty : s ≠ "") (large : ∃ c ∈ t.toList, isSmall c = false) :
    isKeyword (s ++ t) = false := by
  have small : ∀ known ∈ keywords, known.toList.tail.all isSmall = true := by decide
  obtain ⟨c, member, notSmall⟩ := large
  refine Bool.eq_false_iff.mpr fun keyword => ?_
  have behind : c ∈ (s ++ t).toList.tail := by
    rw [String.toList_append, List.tail_append_of_ne_nil (by simpa using nonempty)]
    exact List.mem_append_right _ member
  rw [List.all_eq_true.mp (small _ (mem_of_isKeyword keyword)) c behind] at notSmall
  cases notSmall

end Keyword

section Pascal

theorem not_isSmall_toUpper_of_word {c : Char} (word : isWordChar c = true) :
    isSmall c.toUpper = false := by
  have all := forall_ascii (p := fun c => !isWordChar c || !isSmall c.toUpper) (by decide)
    (ascii_of_isWordChar word)
  simpa [word] using all

theorem pascalCase_of_underscores {s : String} (all : ∀ c ∈ s.toList, c = '_') : pascalCase s = "" := by
  have pieces : (s.toList.splitOnP fun c => c = '_' || c = '-').flatMap upperFirst = [] := by
    generalize s.toList = cs at all
    induction cs with
    | nil => rfl
    | cons c rest ih =>
      rw [List.forall_mem_cons] at all
      rw [List.splitOnP_cons_eq_if_modifyHead, if_pos (by simp [all.1]), List.flatMap_cons, ih all.2]
      rfl
  rw [pascalCase, pieces]

/-- The first character of a part is raised, or is a digit. -/
theorem exists_large_pascalCase {s : String} (word : IsWord s) (other : ∃ c ∈ s.toList, c ≠ '_') :
    ∃ c ∈ (pascalCase s).toList, isSmall c = false := by
  rw [pascalCase, String.toList_ofList]
  rw [IsWord] at word
  generalize s.toList = cs at word other
  induction cs with
  | nil =>
    obtain ⟨c, none, _⟩ := other
    cases none
  | cons c rest ih =>
    rw [List.forall_mem_cons] at word
    rw [List.splitOnP_cons_eq_if_modifyHead]
    by_cases underscore : c = '_'
    · rw [if_pos (by simp [underscore]), List.flatMap_cons]
      obtain ⟨d, isOther, differs⟩ := other
      have inRest : d ∈ rest := by
        rcases List.mem_cons.mp isOther with rfl | inRest
        · exact absurd underscore differs
        · exact inRest
      exact ih word.2 ⟨d, inRest, differs⟩
    · have noHyphen : c ≠ '-' := by
        rintro rfl
        exact absurd word.1 (by decide)
      obtain ⟨piece, pieces, split⟩ :=
        List.exists_cons_of_ne_nil (List.splitOnP_ne_nil (fun c => c = '_' || c = '-') rest)
      rw [if_neg (by simp [underscore, noHyphen]), split, List.modifyHead_cons, List.flatMap_cons]
      refine ⟨c.toUpper, List.mem_append_left _ ?_, not_isSmall_toUpper_of_word word.1⟩
      rw [upperFirst, Unicode.upperChar, if_pos (ascii_of_isWordChar word.1)]
      exact List.mem_append_left _ (List.mem_singleton_self _)

theorem pascalCase_empty_or_large {s : String} (word : IsWord s) :
    pascalCase s = "" ∨ ∃ c ∈ (pascalCase s).toList, isSmall c = false := by
  by_cases other : ∃ c ∈ s.toList, c ≠ '_'
  · exact .inr (exists_large_pascalCase word other)
  · push Not at other
    exact .inl (pascalCase_of_underscores other)

end Pascal

section Modules

theorem exists_splitOn_append {separator : Char} {ending : List Char} (apart : separator ∉ ending)
    (cs : List Char) : ∃ front last, cs.splitOn separator = front ++ [last] ∧
      (cs ++ ending).splitOn separator = front ++ [last ++ ending] := by
  induction cs with
  | nil =>
    refine ⟨[], [], rfl, ?_⟩
    have whole : ([separator].intercalate [ending]).splitOn separator = [ending] :=
      List.splitOn_intercalate separator (by simpa using apart) (by simp)
    simpa using whole
  | cons c rest ih =>
    obtain ⟨front, last, plain, ended⟩ := ih
    rw [List.cons_append, List.splitOn_cons_eq_if_modifyHead, List.splitOn_cons_eq_if_modifyHead, plain,
      ended]
    by_cases isSeparator : c = separator
    · exact ⟨[] :: front, last, by simp [isSeparator], by simp [isSeparator]⟩
    · cases front with
      | nil => exact ⟨[], c :: last, by simp [isSeparator], by simp [isSeparator]⟩
      | cons first others =>
        exact ⟨(c :: first) :: others, last, by simp [isSeparator], by simp [isSeparator]⟩

def hostFolders (file : String) : List String :=
  (Text.splitOn '.' (Text.replaceChar '/' '.' (Text.replaceChar '-' '_'
    (Text.dropEnding ".proto" file)))).dropLast

theorem splitOn_hostModule (file : String) :
    ∃ last, '_' ∈ last.toList ∧ Text.splitOn '.' (hostModule file) = hostFolders file ++ [last] := by
  obtain ⟨front, last, plain, ended⟩ := exists_splitOn_append (by decide : '.' ∉ "_pb2".toList)
    (Text.replaceChar '/' '.' (Text.replaceChar '-' '_' (Text.dropEnding ".proto" file))).toList
  refine ⟨String.ofList (last ++ "_pb2".toList), by simp, ?_⟩
  rw [hostFolders, Text.splitOn, Text.splitOn, hostModule, String.toList_append, plain, ended]
  simp

theorem keywordFree_hostModule {file : String} :
    KeywordFree (Text.splitOn '.' (hostModule file)) ↔ KeywordFree (hostFolders file) := by
  obtain ⟨last, underscore, parts⟩ := splitOn_hostModule file
  simp [parts, isKeyword_of_underscore underscore]

theorem splitOn_valueModule (package file : String) (packagePrefix : Option String) :
    Text.splitOn '.' (valueModule package file packagePrefix) =
      components (packagePrefix.getD "") ++ components package ++ [fileStem file ++ "_idiom"] := by
  have plain : ∀ part ∈ components (packagePrefix.getD "") ++ components package ++
      [fileStem file ++ "_idiom"], '.' ∉ part.toList := by
    intro part isPart
    rcases List.mem_append.mp isPart with isFolder | isName
    · rcases List.mem_append.mp isFolder with isFolder | isFolder
      · exact dot_not_mem_component isFolder
      · exact dot_not_mem_component isFolder
    · rw [List.mem_singleton.mp isName, String.toList_append, List.mem_append, not_or]
      exact ⟨dot_not_mem_fileStem file, by decide⟩
  exact Text.splitOn_intercalate plain (by simp)

theorem keywordFree_valueModule {package file : String} {packagePrefix : Option String} :
    KeywordFree (Text.splitOn '.' (valueModule package file packagePrefix)) ↔
      KeywordFree (components (packagePrefix.getD "") ++ components package) := by
  have name : isKeyword (fileStem file ++ "_idiom") = false := isKeyword_of_underscore (by simp)
  simp [splitOn_valueModule, name]

end Modules

end Name

end ProtoBindings
