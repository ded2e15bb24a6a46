import Mathlib.Data.List.Basic
import ProtoBindings.Mapping.Scope
import ProtoBindings.Plugin.Config

namespace ProtoBindings

def PercentFree (s : String) : Prop := '%' ∉ s.toList

instance (s : String) : Decidable (PercentFree s) := inferInstanceAs (Decidable ('%' ∉ s.toList))

theorem percentFree_append {s t : String} : PercentFree (s ++ t) ↔ PercentFree s ∧ PercentFree t := by
  simp [PercentFree, not_or]

theorem percentFree_intercalate {separator : String} (free : PercentFree separator)
    {parts : List String} (each : ∀ part ∈ parts, PercentFree part) :
    PercentFree (separator.intercalate parts) := by
  induction parts with
  | nil => simp [PercentFree]
  | cons part rest ih =>
    have later := ih fun other member => each other (List.mem_cons_of_mem _ member)
    have first := each part List.mem_cons_self
    cases rest with
    | nil => simpa using first
    | cons next rest =>
      rw [String.intercalate_cons_cons, percentFree_append, percentFree_append]
      exact ⟨⟨first, free⟩, later⟩

theorem percentFree_of_intercalate {separator : String} {parts : List String}
    (whole : PercentFree (separator.intercalate parts)) : ∀ part ∈ parts, PercentFree part := by
  induction parts with
  | nil => simp
  | cons part rest ih =>
    intro other member
    cases rest with
    | nil =>
      rw [List.mem_singleton.mp member]
      simpa using whole
    | cons next rest =>
      rw [String.intercalate_cons_cons, percentFree_append, percentFree_append] at whole
      obtain ⟨⟨first, _⟩, later⟩ := whole
      rcases List.mem_cons.mp member with rfl | member
      · exact first
      · exact ih later other member

namespace Name

theorem percentFree_replaceChar {old new : Char} (other : new ≠ '%') {s : String}
    (free : PercentFree s) : PercentFree (Text.replaceChar old new s) := by
  rw [PercentFree, Text.replaceChar, String.toList_map, List.mem_map]
  rintro ⟨c, member, same⟩
  split at same
  · exact other same
  · exact free (same ▸ member)

theorem percentFree_of_subset {cs : List Char} {s : String} (free : PercentFree s)
    (subset : cs ⊆ s.toList) : PercentFree (String.ofList cs) := by
  rw [PercentFree, String.toList_ofList]
  exact fun member => free (subset member)

theorem percentFree_dropEnding {ending s : String} (free : PercentFree s) :
    PercentFree (Text.dropEnding ending s) := by
  rw [Text.dropEnding]
  split
  · exact percentFree_of_subset free (List.take_subset _ _)
  · exact free

theorem percentFree_baseName {path : String} (free : PercentFree path) :
    PercentFree (baseName path) := by
  refine percentFree_of_subset free fun c member => ?_
  have inside := (List.takeWhile_sublist _).subset (List.mem_reverse.mp member)
  exact List.mem_reverse.mp inside

theorem percentFree_fileStem {file : String} (free : PercentFree file) :
    PercentFree (fileStem file) := by
  refine percentFree_replaceChar (by decide) (percentFree_replaceChar (by decide) ?_)
  exact percentFree_dropEnding (percentFree_baseName free)

theorem intercalate_splitOn (path : String) : ".".intercalate (Text.splitOn '.' path) = path := by
  rw [← String.toList_inj, String.toList_intercalate, Text.splitOn, List.map_map]
  have pieces : String.toList ∘ String.ofList = id := funext fun cs => String.toList_ofList
  rw [pieces, List.map_id]
  exact List.intercalate_splitOn '.'

theorem percentFree_components {path : String} (free : PercentFree path) :
    ∀ part ∈ components path, PercentFree part := by
  intro part member
  have whole := (intercalate_splitOn path).symm ▸ free
  exact percentFree_of_intercalate whole part (List.mem_filter.mp member).1

theorem not_mem_of_identifier {c : Char} (noStart : Unicode.identifierStart.contains c = false)
    (noOther : Unicode.identifierContinue.contains c = false) {s : String}
    (identifier : Unicode.isIdentifier s = true) : c ∉ s.toList := by
  rw [Unicode.isIdentifier] at identifier
  cases list : s.toList with
  | nil => simp
  | cons first rest =>
    rw [list, Unicode.isIdentifierChars, Bool.and_eq_true, List.all_eq_true] at identifier
    obtain ⟨start, others⟩ := identifier
    intro member
    rcases List.mem_cons.mp member with rfl | member
    · rw [noStart] at start
      cases start
    · have other := others _ member
      rw [noOther] at other
      cases other

theorem percentFree_of_identifier {s : String} (identifier : Unicode.isIdentifier s = true) :
    PercentFree s := by
  have noStart : Unicode.identifierStart.contains '%' = false := by decide +kernel
  have noOther : Unicode.identifierContinue.contains '%' = false := by decide +kernel
  exact not_mem_of_identifier noStart noOther identifier

theorem percentFree_components_of_modulePath {path : String}
    (identifiers : Plugin.Config.isModulePath path = true) :
    ∀ part ∈ components path, PercentFree part := by
  intro part member
  have each := List.all_eq_true.mp identifiers part (List.mem_filter.mp member).1
  exact percentFree_of_identifier each

section Case

variable {cs : List Char}

theorem mem_splitRun {run : List Char} {next : Option Char} {c : Char}
    (member : c ∈ splitRun run next) : c ∈ run ∨ c = '_' := by
  unfold splitRun at member
  split at member
  · split at member
    · rcases List.mem_append.mp member with member | member
      · exact .inl (List.dropLast_subset _ member)
      · rcases List.mem_cons.mp member with rfl | member
        · exact .inr rfl
        · exact .inl (List.mem_of_getLast? (Option.mem_toList.mp member))
    · exact .inl member
  · exact .inl member

theorem mem_splitAcronyms {c : Char} (member : c ∈ splitAcronyms cs) : c ∈ cs ∨ c = '_' := by
  fun_induction splitAcronyms cs with
  | case1 => cases member
  | case2 first rest capital ih =>
    rcases List.mem_append.mp member with member | member
    · rcases mem_splitRun member with member | same
      · rcases List.mem_cons.mp member with rfl | member
        · exact .inl List.mem_cons_self
        · exact .inl (List.mem_cons_of_mem _ ((List.takeWhile_sublist _).subset member))
      · exact .inr same
    · refine (ih member).imp_left fun member => ?_
      exact List.mem_cons_of_mem _ ((List.dropWhile_sublist _).subset member)
  | case3 first rest _ ih =>
    rcases List.mem_cons.mp member with rfl | member
    · exact .inl List.mem_cons_self
    · exact (ih member).imp_left (List.mem_cons_of_mem _)

theorem mem_splitWords {c : Char} (member : c ∈ splitWords cs) : c ∈ cs ∨ c = '_' := by
  fun_induction splitWords cs with
  | case1 a b rest _ ih =>
    rcases List.mem_cons.mp member with rfl | member
    · exact .inl List.mem_cons_self
    · rcases List.mem_cons.mp member with rfl | member
      · exact .inr rfl
      · rcases List.mem_cons.mp member with rfl | member
        · exact .inl (by simp)
        · exact (ih member).imp_left fun member => by simp [member]
  | case2 a b rest _ ih =>
    rcases List.mem_cons.mp member with rfl | member
    · exact .inl List.mem_cons_self
    · exact (ih member).imp_left (List.mem_cons_of_mem _)
  | case3 cs => exact .inl member

theorem mem_squeezeUnderscores {c : Char} (member : c ∈ squeezeUnderscores cs) : c ∈ cs := by
  fun_induction squeezeUnderscores cs with
  | case1 rest ih => exact List.mem_cons_of_mem _ (ih member)
  | case2 first rest _ ih =>
    rcases List.mem_cons.mp member with rfl | member
    · exact List.mem_cons_self
    · exact List.mem_cons_of_mem _ (ih member)
  | case3 => cases member

end Case

end Name

namespace Unicode

theorem code_of_ofNat {n : Nat} {c : Char} (same : Char.ofNat n = c) (other : c ≠ Char.ofNat 0) :
    n = c.toNat := by
  subst same
  by_cases valid : n.isValidChar
  · rw [Char.ofNat, dif_pos valid]
    rfl
  · rw [Char.ofNat, dif_neg valid] at other
    exact absurd rfl other

theorem lowerRuns_above : ∀ run ∈ lowerRuns, (95 : Int) < run.low + run.shift := by decide +kernel

theorem shiftCode_lower {code : Nat} (large : 128 ≤ code) : 95 < shiftCode lowerRuns code := by
  rw [shiftCode]
  split
  · rename_i run found
    have above := lowerRuns_above run (List.mem_of_find?_eq_some found)
    have holds : run.holds code = true := by simpa using List.find?_some found
    have inside : run.low ≤ code := by
      simp [CaseRun.holds] at holds
      exact holds.1.1
    omega
  · omega

theorem toLower_ne_percent {c : Char} (small : c.toNat < 128) (other : c ≠ '%') :
    c.toLower ≠ '%' := by
  have ascii : ∀ n < 128, Char.ofNat n ≠ '%' → (Char.ofNat n).toLower ≠ '%' := by decide
  have here := ascii c.toNat small
  rw [Char.ofNat_toNat] at here
  exact here other

theorem percent_not_mem_lowerChar {c : Char} (other : c ≠ '%') : '%' ∉ lowerChar c := by
  rw [lowerChar]
  split
  · rename_i small
    exact fun member => toLower_ne_percent small other (List.mem_singleton.mp member).symm
  · rename_i large
    rw [mapCode]
    split
    · rename_i codes found
      have expansion : codes = [105, 775] := by
        simp only [lowerExpansions, List.lookup_cons, List.lookup_nil] at found
        split at found
        · exact (Option.some.inj found).symm
        · cases found
      rw [expansion]
      decide
    · intro member
      have code := code_of_ofNat (List.mem_singleton.mp member).symm (by decide)
      have above := @shiftCode_lower c.toNat (by omega)
      rw [code] at above
      exact absurd above (by decide)

theorem percent_not_mem_lowerFrom {before cs : List Char} (free : '%' ∉ cs) :
    '%' ∉ lowerFrom before cs := by
  induction cs generalizing before with
  | nil => simp [lowerFrom]
  | cons c rest ih =>
    rw [List.mem_cons, not_or] at free
    obtain ⟨other, later⟩ := free
    rw [lowerFrom, List.mem_append, not_or]
    refine ⟨?_, ih later⟩
    split
    · split <;> decide
    · exact percent_not_mem_lowerChar (Ne.symm other)

end Unicode

namespace Name

theorem percentFree_snakeCase {s : String} (free : PercentFree s) : PercentFree (snakeCase s) := by
  rw [PercentFree, snakeCase, Unicode.lower, String.toList_ofList, String.toList_ofList]
  refine Unicode.percent_not_mem_lowerFrom fun member => ?_
  rcases mem_splitWords (mem_squeezeUnderscores member) with member | same
  · rcases mem_splitAcronyms member with member | same
    · exact free member
    · exact absurd same (by decide)
  · exact absurd same (by decide)

theorem percentFree_valueModule {package file : String} {packagePrefix : Option String}
    (ofPrefix : ∀ part ∈ components (packagePrefix.getD ""), PercentFree part)
    (ofPackage : PercentFree package) (ofFile : PercentFree file) :
    PercentFree (valueModule package file packagePrefix) := by
  refine percentFree_intercalate (by decide) fun part member => ?_
  rcases List.mem_append.mp member with member | member
  · rcases List.mem_append.mp member with member | member
    · exact ofPrefix part member
    · exact percentFree_components ofPackage part member
  · rw [List.mem_singleton.mp member, percentFree_append]
    exact ⟨percentFree_fileStem ofFile, by decide⟩

theorem percentFree_moduleAlias {module : String} (free : PercentFree module) :
    PercentFree (moduleAlias module) := by
  rw [moduleAlias, percentFree_append]
  exact ⟨by decide, percentFree_replaceChar (by decide) free⟩

end Name

end ProtoBindings
