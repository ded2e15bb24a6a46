import Mathlib.Data.List.Induction
import ProtoBindings.Proofs.Resolver.Run

namespace ProtoBindings.Resolver

open Schema (FileUnit)

inductive Call
  | add (file : Descriptor.File)
  | get (name : String)

def perform (resolver : Resolver) : Call → Resolver × Except Error FileUnit
  | .add file => resolver.add file
  | .get name => (resolver, resolver.get name)

/-- A resolver that was empty at first, with the calls that were made since and what they returned. -/
structure History where
  resolver : Resolver := {}
  events : List (Call × Except Error FileUnit) := []

def Error.isMissingDependency : Error → Bool
  | missingDependency _ _ => true
  | _ => false

def addedBy : Call × Except Error FileUnit → Option (Descriptor.File × FileUnit)
  | (.add file, .ok unit) => some (file, unit)
  | _ => none

def abandonedBy : Call × Except Error FileUnit → Option Descriptor.File
  | (.add file, .error e) => if e.isMissingDependency then none else some file
  | _ => none

namespace History

def files (history : History) : List FileUnit := history.resolver.files

def names (history : History) : List String := history.files.map (·.name)

def after (history : History) (call : Call) : History where
  resolver := (history.resolver.perform call).1
  events := history.events ++ [(call, (history.resolver.perform call).2)]

def of (calls : List Call) : History := calls.foldl after {}

/-- The files that were added, each with its unit. -/
def added (history : History) : List (Descriptor.File × FileUnit) := history.events.filterMap addedBy

/-- The files that had their dependencies and still could not be built. -/
def abandoned (history : History) : List Descriptor.File := history.events.filterMap abandonedBy

def lastAdded? (history : History) (name : String) : Option FileUnit :=
  (history.added.filter (·.1.name == name)).getLast?.map (·.2)

end History

/-- What a call can do: it leaves the resolver as it is, or it was an add that got as far as building. -/
inductive History.Next (history : History) : History → Prop
  | idle (event) : addedBy event = none → abandonedBy event = none →
      Next history ⟨history.resolver, history.events ++ [event]⟩
  | failed (file : Descriptor.File) (error : Error) :
      buildFile hostRoom (history.resolver.symbols.extend (fileSymbols file)) file = .error error →
      Next history ⟨⟨history.resolver.symbols.extend (fileSymbols file), history.files⟩,
        history.events ++ [(.add file, .error error)]⟩
  | built (file : Descriptor.File) (unit : FileUnit) : (∀ d ∈ file.dependencies, d ∈ history.names) →
      buildFile hostRoom (history.resolver.symbols.extend (fileSymbols file)) file = .ok unit →
      Next history ⟨⟨history.resolver.symbols.extend (fileSymbols file), insertFile unit history.files⟩,
        history.events ++ [(.add file, .ok unit)]⟩

theorem History.next (history : History) (call : Call) : history.Next (history.after call) := by
  cases call with
  | get name => exact .idle _ rfl rfl
  | add file =>
    have attempt := add_attempt history.resolver file
    rw [after, perform]
    generalize history.resolver.add file = outcome at attempt
    cases attempt with
    | missing dependency => exact .idle _ rfl rfl
    | failed error _ failed => exact .failed file error failed
    | built unit known built => exact .built file unit known built

theorem History.induction {P : History → Prop} (empty : P {})
    (step : ∀ history next, P history → history.Next next → P next) (calls : List Call) :
    P (.of calls) := by
  induction calls using List.reverseRecOn with
  | nil => exact empty
  | append_singleton calls call ih =>
    rw [History.of, List.foldl_append]
    exact step _ _ ih (next _ call)

/-- How files and added files grow together: what is added is inserted after its dependencies. -/
inductive Grown : List (Descriptor.File × FileUnit) → List FileUnit → Prop
  | empty : Grown [] []
  | insert {added files file unit} : Grown added files → unit.name = file.name →
      (∀ d ∈ unit.dependencies, d ∈ files.map (·.name)) →
      Grown (added ++ [(file, unit)]) (insertFile unit files)

theorem filterMap_concat {α β : Type} (f : α → Option β) (xs : List α) (x : α) :
    (xs ++ [x]).filterMap f = xs.filterMap f ++ (f x).toList := by
  rw [List.filterMap_append]
  cases result : f x <;> simp [result]

theorem History.grown (calls : List Call) : Grown (of calls).added (of calls).files := by
  refine History.induction (P := fun history => Grown history.added history.files) .empty ?_ calls
  intro history next grown step
  cases step with
  | idle event noFile =>
    rw [added, filterMap_concat, noFile, Option.toList_none, List.append_nil]
    exact grown
  | failed file error =>
    have nothing : addedBy (.add file, .error error) = none := rfl
    rw [added, filterMap_concat, nothing, Option.toList_none, List.append_nil]
    exact grown
  | built file unit known built =>
    rw [added, filterMap_concat]
    exact grown.insert (buildFile_name built) (by rwa [buildFile_dependencies built])

section Grown

variable {added : List (Descriptor.File × FileUnit)} {files : List FileUnit}
  (grown : Grown added files)
include grown

theorem Grown.names_eq : files.map (·.name) = (added.map (·.1.name)).eraseDups := by
  induction grown with
  | empty => rfl
  | insert _ named _ ih =>
    rw [insertFile_names, List.map_append, List.map_singleton, List.eraseDups_concat, ih, named]
    simp only [List.mem_eraseDups]

theorem Grown.nodup : (files.map (·.name)).Nodup := by
  rw [grown.names_eq]
  exact List.nodup_eraseDups _

theorem Grown.find_eq (name : String) : files.find? (·.name == name) =
    (added.filter (·.1.name == name)).getLast?.map (·.2) := by
  induction grown with
  | empty => rfl
  | @insert added files file unit _ named _ ih =>
    rw [find?_insertFile, List.filter_append, named]
    by_cases here : file.name = name
    · simp [here]
    · simpa [here] using ih

theorem Grown.dependencies_known : ∀ unit ∈ files, ∀ d ∈ unit.dependencies, d ∈ files.map (·.name) := by
  induction grown with
  | empty => exact fun _ member => absurd member List.not_mem_nil
  | @insert added files file unit _ named known ih =>
    intro other member d isDependency
    have earlier : d ∈ files.map (·.name) := by
      rcases mem_insertFile member with rfl | member
      · exact known d isDependency
      · exact ih other member d isDependency
    rw [insertFile_names]
    split
    · exact earlier
    · exact List.mem_append_left _ earlier

theorem Grown.new_of_nodup {file : Descriptor.File} {unit : FileUnit} (named : unit.name = file.name)
    (distinct : ((added ++ [(file, unit)]).map (·.1.name)).Nodup) :
    (added.map (·.1.name)).Nodup ∧ unit.name ∉ files.map (·.name) := by
  rw [List.map_append, List.nodup_append] at distinct
  refine ⟨distinct.1, ?_⟩
  rw [grown.names_eq, List.mem_eraseDups, named]
  exact fun member => distinct.2.2 _ member _ (List.mem_singleton_self _) rfl

theorem Grown.files_eq (distinct : (added.map (·.1.name)).Nodup) : files = added.map (·.2) := by
  induction grown with
  | empty => rfl
  | insert grown named _ ih =>
    obtain ⟨distinct, new⟩ := grown.new_of_nodup named distinct
    rw [insertFile_new new, List.map_append, ih distinct]
    rfl

theorem Grown.dependencies_before (distinct : (added.map (·.1.name)).Nodup) :
    ∀ before unit after, files = before ++ unit :: after →
      ∀ d ∈ unit.dependencies, d ∈ before.map (·.name) := by
  induction grown with
  | empty => simp
  | @insert added files file unit grown named known ih =>
    obtain ⟨distinct, new⟩ := grown.new_of_nodup named distinct
    intro before other after split
    rw [insertFile_new new] at split
    rcases List.eq_nil_or_concat after with rfl | ⟨rest, last, rfl⟩
    · obtain ⟨rfl, same⟩ := List.append_inj' split rfl
      cases same
      exact known
    · rw [List.concat_eq_append, ← List.cons_append, ← List.append_assoc] at split
      exact ih distinct before other rest (List.append_inj' split rfl).1

end Grown

/-- What the files of a resolver are at any time. -/
structure Consistent (history : History) : Prop where
  kept : ∀ file error, (history.resolver.add file).2 = .error error →
    (history.resolver.add file).1.files = history.files
  keyed : ∀ name unit, history.resolver.find? name = some unit ↔
    unit ∈ history.files ∧ unit.name = name
  got : ∀ name, history.resolver.get name =
    (history.lastAdded? name).elim (.error (.unknownFile name)) .ok
  order : history.names = (history.added.map (·.1.name)).eraseDups
  dependencies : ∀ unit ∈ history.files, ∀ d ∈ unit.dependencies, d ∈ history.names
  ordered : (history.added.map (·.1.name)).Nodup → ∀ before unit after,
    history.files = before ++ unit :: after → ∀ d ∈ unit.dependencies, d ∈ before.map (·.name)

theorem failed_add_keeps {resolver : Resolver} {file : Descriptor.File} {error : Error}
    (failed : (resolver.add file).2 = .error error) : (resolver.add file).1.files = resolver.files := by
  have attempt := add_attempt resolver file
  generalize resolver.add file = outcome at attempt failed
  cases attempt with
  | missing | failed => rfl
  | built => cases failed

theorem find_iff_of_nodup {resolver : Resolver} (distinct : (resolver.files.map (·.name)).Nodup)
    (name : String) (unit : FileUnit) :
    resolver.find? name = some unit ↔ unit ∈ resolver.files ∧ unit.name = name := by
  constructor
  · intro found
    exact ⟨List.mem_of_find?_eq_some found, by simpa using List.find?_some found⟩
  · rintro ⟨member, rfl⟩
    exact List.find?_of_nodup distinct member

theorem history_consistent (calls : List Call) : Consistent (.of calls) where
  kept file error failed := failed_add_keeps failed
  keyed := find_iff_of_nodup (History.grown calls).nodup
  got name := by
    have found : (History.of calls).resolver.find? name = (History.of calls).lastAdded? name :=
      (History.grown calls).find_eq name
    rw [get, found]
    cases (History.of calls).lastAdded? name <;> rfl
  order := (History.grown calls).names_eq
  dependencies := (History.grown calls).dependencies_known
  ordered := (History.grown calls).dependencies_before

end ProtoBindings.Resolver
