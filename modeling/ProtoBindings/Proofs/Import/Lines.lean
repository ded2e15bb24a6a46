import Mathlib.Data.List.Basic
import ProtoBindings.Import.Block

namespace ProtoBindings

/-- What the lines of a block look like, with the imports that they make. -/
inductive ImportLine : String → Import → Prop
  | module (module) : ImportLine ("import " ++ module) { module }
  | moduleAs (module bound) :
      ImportLine ("import " ++ module ++ " as " ++ bound) { module, localName := some bound }
  | names (module name) (names : List String) : name ∈ names →
      ImportLine ("from " ++ module ++ " import " ++ ", ".intercalate names)
        { module, name := some name }
  | nameAs (module name bound) :
      ImportLine ("from " ++ module ++ " import " ++ name ++ " as " ++ bound)
        { module, name := some name, localName := some bound }

namespace Import

def bound (i : Import) : String :=
  match i.localName.filter (· ≠ "") with
  | some bound => bound
  | none => i.name.getD (String.ofList (i.module.toList.takeWhile (· ≠ '.')))

/-- No line after its own binds the name to anything else. -/
def BindsLast (imports : List Import) (i : Import) : Prop :=
  ∃ above line below, block imports = above ++ line :: below ∧ ImportLine line i ∧
    ∀ j ∈ imports, j.bound = i.bound → ∀ later ∈ below, ImportLine later j → j = i

structure Named (i : Import) : Prop where
  name : i.name ≠ some ""
  localName : i.localName ≠ some ""

theorem mem_sortLines {line : String} {lines : List String} : line ∈ sortLines lines ↔ line ∈ lines := by
  simp [sortLines, Line.ofText]

theorem render_line {i : Import} (named : i.Named) : ImportLine i.render i := by
  obtain ⟨module, name, localName⟩ := i
  obtain ⟨hasName, hasBound⟩ := named
  cases name with
  | none =>
    cases localName with
    | none => exact .module module
    | some bound =>
      have kept : (some bound).filter (· ≠ "") = some bound := by simpa using hasBound
      rw [render, aliased, kept]
      exact .moduleAs module bound
  | some name =>
    cases localName with
    | none =>
      have line := ImportLine.names module name [name] List.mem_cons_self
      rwa [String.intercalate_singleton] at line
    | some bound =>
      have kept : (some bound).filter (· ≠ "") = some bound := by simpa using hasBound
      simp only [render, aliased, kept]
      exact .nameAs module name bound

theorem mergedLine_line {imports : List Import} {i : Import} (named : i.Named) (member : i ∈ imports)
    {name : String} (merged : i.mergedName? = some name) :
    ∃ line ∈ mergedLine imports, ImportLine line i := by
  have inNames : name ∈ (imports.filterMap mergedName?).eraseDups.mergeSort (· ≤ ·) := by
    simpa [List.mem_eraseDups] using ⟨i, member, merged⟩
  rw [mergedName?] at merged
  split at merged
  · rename_i ofTyping
    obtain ⟨module, given, localName⟩ := i
    obtain ⟨rfl, noBound⟩ := ofTyping
    have isName : given = some name := (Option.filter_eq_some_iff.mp merged).1
    have isBound : localName = none := by
      cases localName with
      | none => rfl
      | some bound =>
        have hasBound := named.localName
        simp_all
    rw [isName, isBound, mergedLine]
    split
    · rename_i none
      rw [none] at inNames
      cases inNames
    · exact ⟨_, List.mem_cons_self, .names "typing" name _ inNames⟩
  · cases merged

theorem block_line {imports : List Import} {i : Import} (named : i.Named) (member : i ∈ imports) :
    ∃ line ∈ block imports, ImportLine line i := by
  have unique : i ∈ imports.eraseDups.mergeSort before := by simpa [List.mem_eraseDups] using member
  cases merged : i.mergedName? with
  | some name =>
    obtain ⟨line, inMerged, made⟩ := mergedLine_line named member merged
    refine ⟨line, List.mem_append_left _ (List.mem_append_left _ (mem_sortLines.mpr ?_)), made⟩
    exact List.mem_append_right _ inMerged
  | none =>
    have own : i ∈ (imports.eraseDups.mergeSort before).filter (·.mergedName?.isNone) :=
      List.mem_filter.mpr ⟨unique, by simp [merged]⟩
    refine ⟨i.render, ?_, render_line named⟩
    by_cases standard : i.isStandard = true
    · refine List.mem_append_left _ (List.mem_append_left _ (mem_sortLines.mpr ?_))
      exact List.mem_append_left _ (List.mem_map_of_mem (List.mem_filter.mpr ⟨own, standard⟩))
    · refine List.mem_append_right _ (mem_sortLines.mpr (List.mem_map_of_mem ?_))
      exact List.mem_filter.mpr ⟨own, by simpa using standard⟩

theorem bindsLast_of_only {imports : List Import} {i : Import} (named : i.Named) (member : i ∈ imports)
    (only : ∀ j ∈ imports, j.bound = i.bound → j = i) : i.BindsLast imports := by
  obtain ⟨line, inBlock, made⟩ := block_line named member
  obtain ⟨above, below, split⟩ := List.append_of_mem inBlock
  exact ⟨above, line, below, split, made, fun j isImport same _ _ _ => only j isImport same⟩

end Import

end ProtoBindings
