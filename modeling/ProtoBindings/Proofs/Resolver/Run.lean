import Mathlib.Data.List.Nodup
import ProtoBindings.Proofs.Descriptor.Node
import ProtoBindings.Proofs.Result
import ProtoBindings.Resolver.Basic

namespace ProtoBindings.Resolver

open Schema (FileUnit)

def SymbolTable.ofFiles (files : List Descriptor.File) : SymbolTable :=
  SymbolTable.extend {} (files.flatMap fileSymbols)

theorem SymbolTable.extend_ofFiles (files : List Descriptor.File) (file : Descriptor.File) :
    (ofFiles files).extend (fileSymbols file) = ofFiles (files ++ [file]) := by
  simp [ofFiles, extend]

theorem SymbolTable.mem_of_find {table : SymbolTable} {name : String} {s : Symbol}
    (found : table.find? name = some s) : s ∈ table.newestFirst ∧ s.ref.fullName = name :=
  ⟨List.mem_of_find?_eq_some found, by simpa using List.find?_some found⟩

theorem SymbolTable.find_isSome {table : SymbolTable} {s : Symbol} (member : s ∈ table.newestFirst) :
    ∃ t, table.find? s.ref.fullName = some t :=
  Option.isSome_iff_exists.mp (List.find?_isSome.mpr ⟨s, member, beq_self_eq_true _⟩)

theorem SymbolTable.mem_ofFiles {files : List Descriptor.File} {s : Symbol} :
    s ∈ (ofFiles files).newestFirst ↔ ∃ file ∈ files, s ∈ fileSymbols file := by
  simp [ofFiles, extend]

theorem SymbolTable.find_ofFiles_append {earlier later : List Descriptor.File} {name : String}
    {s : Symbol} (found : (ofFiles (earlier ++ later)).find? name = some s)
    (absent : ∀ file ∈ later, s ∉ fileSymbols file) : (ofFiles earlier).find? name = some s := by
  simp only [ofFiles, extend, find?, List.append_nil, List.flatMap_append, List.reverse_append,
    List.find?_append] at found ⊢
  rcases Option.or_eq_some_iff.mp found with inLater | ⟨_, inEarlier⟩
  · have member := List.mem_of_find?_eq_some inLater
    simp only [List.mem_reverse, List.mem_flatMap] at member
    obtain ⟨file, isLater, declared⟩ := member
    exact absurd declared (absent file isLater)
  · exact inEarlier

theorem buildFile_name {room : Room} {table : SymbolTable} {file : Descriptor.File} {unit : FileUnit}
    (built : buildFile room table file = .ok unit) : unit.name = file.name := by
  simp only [buildFile, Result.bind_eq_ok, Result.pure_eq_ok] at built
  obtain ⟨_, _, _, _, _, _, rfl⟩ := built
  rfl

theorem buildFile_dependencies {room : Room} {table : SymbolTable} {file : Descriptor.File} {unit : FileUnit}
    (built : buildFile room table file = .ok unit) : unit.dependencies = file.dependencies := by
  simp only [buildFile, Result.bind_eq_ok, Result.pure_eq_ok] at built
  obtain ⟨_, _, _, _, _, _, rfl⟩ := built
  rfl

theorem hasFile_iff {resolver : Resolver} {name : String} :
    resolver.hasFile name = true ↔ name ∈ resolver.files.map (·.name) := by
  simp [hasFile]

/-- What adding a file can come to: a dependency is missing, the file cannot be built, or it is. -/
inductive Attempt (room : Room) (resolver : Resolver) (file : Descriptor.File) :
    Resolver × Except Error FileUnit → Prop
  | missing (dependency : String) : dependency ∈ file.dependencies →
      dependency ∉ resolver.files.map (·.name) →
      Attempt room resolver file (resolver, .error (.missingDependency dependency file.name))
  | failed (error : Error) : (∀ d ∈ file.dependencies, d ∈ resolver.files.map (·.name)) →
      buildFile room (resolver.symbols.extend (fileSymbols file)) file = .error error →
      Attempt room resolver file
        (⟨resolver.symbols.extend (fileSymbols file), resolver.files⟩, .error error)
  | built (unit : FileUnit) : (∀ d ∈ file.dependencies, d ∈ resolver.files.map (·.name)) →
      buildFile room (resolver.symbols.extend (fileSymbols file)) file = .ok unit →
      Attempt room resolver file
        (⟨resolver.symbols.extend (fileSymbols file), insertFile unit resolver.files⟩, .ok unit)

theorem addIn_attempt (room : Room) (resolver : Resolver) (file : Descriptor.File) :
    Attempt room resolver file (resolver.addIn room file) := by
  rw [addIn]
  split
  · rename_i dependency found
    have missing := List.find?_some found
    rw [Bool.not_eq_true', Bool.eq_false_iff, ne_eq, hasFile_iff] at missing
    exact .missing dependency (List.mem_of_find?_eq_some found) missing
  · rename_i none
    have known : ∀ d ∈ file.dependencies, d ∈ resolver.files.map (·.name) := fun d member => by
      have present := List.find?_eq_none.mp none d member
      rwa [Bool.not_eq_true', Bool.not_eq_false, hasFile_iff] at present
    dsimp only
    split
    · rename_i error failed
      exact .failed error known failed
    · rename_i unit built
      exact .built unit known built

theorem add_attempt (resolver : Resolver) (file : Descriptor.File) :
    Attempt hostRoom resolver file (resolver.add file) := addIn_attempt hostRoom resolver file

theorem add_eq_ok {resolver next : Resolver} {file : Descriptor.File} {unit : FileUnit}
    (added : resolver.add file = (next, .ok unit)) :
    buildFile hostRoom (resolver.symbols.extend (fileSymbols file)) file = .ok unit ∧
      next = ⟨resolver.symbols.extend (fileSymbols file), insertFile unit resolver.files⟩ := by
  have attempt := add_attempt resolver file
  rw [added] at attempt
  cases attempt with
  | built _ _ built => exact ⟨built, rfl⟩

theorem addAll_cons_eq_ok {resolver final : Resolver} {file : Descriptor.File}
    {rest : List Descriptor.File} (added : (resolver.addAll (file :: rest)).2 = .ok final) :
    ∃ next unit, resolver.add file = (next, .ok unit) ∧ (next.addAll rest).2 = .ok final := by
  rw [addAll] at added
  split at added
  · cases added
  · rename_i next unit first
    exact ⟨next, unit, first, added⟩

theorem mem_insertFile {unit other : FileUnit} {files : List FileUnit}
    (member : other ∈ insertFile unit files) : other = unit ∨ other ∈ files := by
  induction files with
  | nil => simpa [insertFile] using member
  | cons first rest ih =>
    rw [insertFile] at member
    split at member
    · rcases List.mem_cons.mp member with same | member
      · exact .inl same
      · exact .inr (List.mem_cons_of_mem _ member)
    · rcases List.mem_cons.mp member with same | member
      · exact .inr (same ▸ List.mem_cons_self)
      · exact (ih member).imp_right (List.mem_cons_of_mem _)

theorem insertFile_mem (unit : FileUnit) (files : List FileUnit) :
    unit ∈ insertFile unit files := by
  induction files with
  | nil => exact List.mem_cons_self
  | cons first rest ih =>
    rw [insertFile]
    split
    · exact List.mem_cons_self
    · exact List.mem_cons_of_mem _ ih

theorem insertFile_keeps {unit other : FileUnit} {files : List FileUnit} (member : other ∈ files)
    (different : other.name ≠ unit.name) : other ∈ insertFile unit files := by
  induction files with
  | nil => cases member
  | cons first rest ih =>
    rw [insertFile]
    split
    · rename_i same
      rcases List.mem_cons.mp member with rfl | member
      · exact absurd same different
      · exact List.mem_cons_of_mem _ member
    · rcases List.mem_cons.mp member with rfl | member
      · exact List.mem_cons_self
      · exact List.mem_cons_of_mem _ (ih member)

theorem find?_insertFile (unit : FileUnit) (files : List FileUnit) (name : String) :
    (insertFile unit files).find? (·.name == name) =
      if unit.name = name then some unit else files.find? (·.name == name) := by
  induction files with
  | nil =>
    rw [insertFile, List.find?_singleton]
    simp
  | cons first rest ih =>
    rw [insertFile]
    by_cases same : first.name = unit.name
    · rw [if_pos same]
      by_cases here : unit.name = name
      · simp [here]
      · rw [if_neg here, List.find?_cons_of_neg (by simpa using here),
          List.find?_cons_of_neg (by simpa [same] using here)]
    · rw [if_neg same]
      by_cases here : first.name = name
      · simp [here, show unit.name ≠ name from fun other => same (here.trans other.symm)]
      · rw [List.find?_cons_of_neg (by simpa using here), ih,
          List.find?_cons_of_neg (by simpa using here)]

theorem insertFile_names (unit : FileUnit) (files : List FileUnit) :
    (insertFile unit files).map (·.name) =
      if unit.name ∈ files.map (·.name) then files.map (·.name)
      else files.map (·.name) ++ [unit.name] := by
  induction files with
  | nil => rfl
  | cons first rest ih =>
    rw [insertFile]
    by_cases same : first.name = unit.name
    · simp [same]
    · have different : unit.name ≠ first.name := fun same' => same same'.symm
      rw [if_neg same, List.map_cons, List.map_cons, ih]
      by_cases known : unit.name ∈ rest.map (·.name)
      · rw [if_pos known, if_pos (List.mem_cons_of_mem _ known)]
      · rw [if_neg known, if_neg (by simpa [different] using known), List.cons_append]

theorem insertFile_new {unit : FileUnit} {files : List FileUnit}
    (new : unit.name ∉ files.map (·.name)) : insertFile unit files = files ++ [unit] := by
  induction files with
  | nil => rfl
  | cons first rest ih =>
    rw [List.map_cons, List.mem_cons, not_or] at new
    rw [insertFile, if_neg fun same => new.1 same.symm, ih new.2, List.cons_append]

/-- A unit with the file that it was built from and the files that were added before. -/
def BuiltFrom (files : List Descriptor.File) (unit : FileUnit) : Prop :=
  ∃ before file after, files = before ++ file :: after ∧
    buildFile hostRoom (.ofFiles (before ++ [file])) file = .ok unit

/-- The state of a resolver after files were added to an empty one. -/
structure After (files : List Descriptor.File) (resolver : Resolver) : Prop where
  symbols : resolver.symbols = .ofFiles files
  built : ∀ unit ∈ resolver.files, BuiltFrom files unit
  present : ∀ file ∈ files, ∃ unit ∈ resolver.files, unit.name = file.name

theorem BuiltFrom.append {files : List Descriptor.File} {unit : FileUnit}
    (built : BuiltFrom files unit) (more : List Descriptor.File) : BuiltFrom (files ++ more) unit := by
  obtain ⟨before, file, after, rfl, result⟩ := built
  exact ⟨before, file, after ++ more, by simp, result⟩

theorem builtFrom_insertFile {files : List Descriptor.File} {units : List FileUnit}
    {file : Descriptor.File} {unit : FileUnit} (earlier : ∀ other ∈ units, BuiltFrom files other)
    (built : buildFile hostRoom (.ofFiles (files ++ [file])) file = .ok unit) :
    ∀ other ∈ insertFile unit units, BuiltFrom (files ++ [file]) other := by
  intro other member
  rcases mem_insertFile member with rfl | member
  · exact ⟨files, file, [], rfl, built⟩
  · exact (earlier other member).append [file]

theorem After.add {files : List Descriptor.File} {resolver next : Resolver}
    {file : Descriptor.File} {unit : FileUnit} (state : After files resolver)
    (added : resolver.add file = (next, .ok unit)) : After (files ++ [file]) next := by
  obtain ⟨built, rfl⟩ := add_eq_ok added
  rw [state.symbols, SymbolTable.extend_ofFiles] at built ⊢
  refine ⟨rfl, builtFrom_insertFile state.built built, ?_⟩
  intro earlier member
  by_cases same : earlier.name = unit.name
  · exact ⟨unit, insertFile_mem unit _, same.symm⟩
  · rcases List.mem_append.mp member with member | member
    · obtain ⟨other, found, named⟩ := state.present earlier member
      exact ⟨other, insertFile_keeps found (by rwa [named]), named⟩
    · rw [List.mem_singleton.mp member] at same
      exact absurd (buildFile_name built).symm same

theorem After.addAll {files : List Descriptor.File} {resolver final : Resolver}
    (state : After files resolver) {more : List Descriptor.File}
    (added : (resolver.addAll more).2 = .ok final) : After (files ++ more) final := by
  induction more generalizing files resolver with
  | nil =>
    rw [Resolver.addAll] at added
    cases added
    simpa using state
  | cons file rest ih =>
    obtain ⟨next, unit, first, others⟩ := addAll_cons_eq_ok added
    have later := ih (state.add first) others
    simpa using later

theorem after_resolve {files : List Descriptor.File} {resolver : Resolver}
    (resolved : resolve files = .ok resolver) : After files resolver := by
  have empty : After [] {} := ⟨rfl, by simp, by simp⟩
  simpa using empty.addAll resolved

theorem addAll_names {resolver final : Resolver} {more : List Descriptor.File}
    (distinct : (resolver.files.map (·.name) ++ more.map (·.name)).Nodup)
    (added : (resolver.addAll more).2 = .ok final) :
    final.files.map (·.name) = resolver.files.map (·.name) ++ more.map (·.name) := by
  induction more generalizing resolver with
  | nil =>
    rw [Resolver.addAll] at added
    cases added
    simp
  | cons file rest ih =>
    obtain ⟨next, unit, first, others⟩ := addAll_cons_eq_ok added
    obtain ⟨built, rfl⟩ := add_eq_ok first
    have fresh : file.name ∉ resolver.files.map (·.name) := fun known =>
      (List.nodup_append.mp distinct).2.2 _ known _ List.mem_cons_self rfl
    have names : (insertFile unit resolver.files).map (·.name) =
        resolver.files.map (·.name) ++ [file.name] := by
      rw [insertFile_names, buildFile_name built, if_neg fresh]
    rw [ih (by simpa [names] using distinct) others, names]
    simp

theorem resolve_names {files : List Descriptor.File} {resolver : Resolver}
    (distinct : (files.map (·.name)).Nodup) (resolved : resolve files = .ok resolver) :
    files.map (·.name) = resolver.files.map (·.name) := by
  have fresh : (({} : Resolver).files.map (·.name) ++ files.map (·.name)).Nodup := distinct
  exact (addAll_names fresh resolved).symm

theorem After.find {files : List Descriptor.File} {resolver : Resolver} {file : Descriptor.File}
    (state : After files resolver) (member : file ∈ files) :
    ∃ unit ∈ resolver.files, resolver.find? file.name = some unit ∧ unit.name = file.name := by
  obtain ⟨unit, found, named⟩ := state.present file member
  have some : (resolver.find? file.name).isSome :=
    List.find?_isSome.mpr ⟨unit, found, by simpa using named⟩
  obtain ⟨first, result⟩ := Option.isSome_iff_exists.mp some
  exact ⟨first, List.mem_of_find?_eq_some result, result, by simpa using List.find?_some result⟩

theorem file_eq_of_name {files : List Descriptor.File} (distinct : (files.map (·.name)).Nodup)
    {f g : Descriptor.File} (hf : f ∈ files) (hg : g ∈ files) (same : f.name = g.name) : f = g :=
  List.inj_on_of_nodup_map distinct hf hg same

end ProtoBindings.Resolver
