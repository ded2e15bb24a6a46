import ProtoBindings.Mapping.WellKnown
import ProtoBindings.Proofs.Import.Lines
import ProtoBindings.Proofs.Value.Items

namespace ProtoBindings.Value

open Code (Path freePaths)

def builtins : List String :=
  ["TypeError", "bool", "bytes", "dict", "float", "getattr", "int", "isinstance", "list", "setattr",
    "str"]

inductive Library : Import → String → Prop
  | standard (module) : module ∈ ["dataclasses", "datetime", "enum"] → Library { module } module
  | typing (name) : name ∈ ["Dict", "List", "Optional", "Union"] → Library (.typing name) name
  | wellKnown : Library .wellKnownSupport "_wkt"
  | parsers : Library .parserSupport "_parsers"
  | host (file) : Library (.ofModule (Name.hostModule file)) (Name.moduleAlias (Name.hostModule file))

theorem named_ofModule (module : String) : (Import.ofModule module).Named := by
  refine ⟨nofun, fun empty => ?_⟩
  have noAlias : Name.moduleAlias module = "" := Option.some.inj empty
  simp [Name.moduleAlias] at noAlias

theorem Library.named {i : Import} {id : String} (isLibrary : Library i id) : i.Named := by
  cases isLibrary with
  | standard module known => exact ⟨nofun, nofun⟩
  | typing name known =>
    refine ⟨fun empty => ?_, nofun⟩
    cases empty
    revert known
    decide
  | wellKnown => exact ⟨by decide, by decide⟩
  | parsers => exact ⟨by decide, by decide⟩
  | host file => exact named_ofModule _

/-- What the names of a module can stand for: its imports, its definitions so far with the members of its
    enums, and what other value modules have. -/
structure Context where
  imports : List Import
  defined : List String := []
  members : List (String × String) := []
  elsewhere : (module id : String) → Prop
  memberElsewhere : (module owner id : String) → Prop

/-- What a path of names can stand for: something of the language or of a library, a definition or an
    enum member of the module itself, or one of a value module that a line imports. -/
inductive Context.Resolves (c : Context) : Path → Prop
  | builtin (id) : id ∈ builtins → Resolves c [id]
  | library (line i id rest) : i ∈ c.imports → line ∈ Import.block c.imports → ImportLine line i →
      Library i id → Resolves c (id :: rest)
  | own (id) : id ∈ c.defined → Resolves c [id]
  | member (owner id) : (owner, id) ∈ c.members → Resolves c [owner, id]
  | foreign (line module id) : .ofModule module ∈ c.imports → line ∈ Import.block c.imports →
      ImportLine line (.ofModule module) → c.elsewhere module id → Resolves c [Name.moduleAlias module, id]
  | foreignMember (line module owner id) : .ofModule module ∈ c.imports →
      line ∈ Import.block c.imports → ImportLine line (.ofModule module) → c.memberElsewhere module owner id →
      Resolves c [Name.moduleAlias module, owner, id]

namespace Context

def extend (c : Context) (items : List Item) : Context :=
  { c with
    defined := c.defined ++ items.flatMap (·.defines)
    members := c.members ++ items.flatMap (·.members) }

/-- Definitions that can be gone through in order: each evaluates what is there by then. -/
def Runs (c : Context) : List Item → Prop
  | [] => True
  | item :: rest => (∀ p ∈ item.evaluated, c.Resolves p) ∧ (c.extend [item]).Runs rest

def RunsBy (knows : Context → Path → Prop) (c : Context) : List Item → Prop
  | [] => True
  | item :: rest => (∀ p ∈ item.evaluated, knows c p) ∧ RunsBy knows (c.extend [item]) rest

structure Within (c d : Context) : Prop where
  imports : c.imports = d.imports
  defined : c.defined ⊆ d.defined
  members : c.members ⊆ d.members
  elsewhere : c.elsewhere = d.elsewhere
  memberElsewhere : c.memberElsewhere = d.memberElsewhere

variable {c d : Context}

theorem Within.extend (c : Context) (items : List Item) : c.Within (c.extend items) :=
  ⟨rfl, List.subset_append_left _ _, List.subset_append_left _ _, rfl, rfl⟩

theorem Within.extend_both (within : c.Within d) (items : List Item) :
    (c.extend items).Within (d.extend items) where
  imports := within.imports
  defined := List.append_subset.mpr
    ⟨List.subset_append_of_subset_left _ within.defined, List.subset_append_right _ _⟩
  members := List.append_subset.mpr
    ⟨List.subset_append_of_subset_left _ within.members, List.subset_append_right _ _⟩
  elsewhere := within.elsewhere
  memberElsewhere := within.memberElsewhere

theorem Resolves.mono {p : Path} (resolves : c.Resolves p) (within : c.Within d) : d.Resolves p := by
  obtain ⟨sameImports, defined, members, elsewhere, memberElsewhere⟩ := within
  cases resolves with
  | builtin id isBuiltin => exact .builtin id isBuiltin
  | library line i id rest imported inBlock made isLibrary =>
    exact .library line i id rest (sameImports ▸ imported) (sameImports ▸ inBlock) made isLibrary
  | own id isDefined => exact .own id (defined isDefined)
  | member owner id isMember => exact .member owner id (members isMember)
  | foreign line module id imported inBlock made isThere =>
    exact .foreign line module id (sameImports ▸ imported) (sameImports ▸ inBlock) made
      (elsewhere ▸ isThere)
  | foreignMember line module owner id imported inBlock made isThere =>
    exact .foreignMember line module owner id (sameImports ▸ imported) (sameImports ▸ inBlock) made
      (memberElsewhere ▸ isThere)

theorem extend_append (c : Context) (first second : List Item) :
    c.extend (first ++ second) = (c.extend first).extend second := by
  simp [extend, List.append_assoc]

section RunsBy

variable {knows : Context → Path → Prop}

theorem runsBy_append {first second : List Item} : RunsBy knows c (first ++ second) ↔
    RunsBy knows c first ∧ RunsBy knows (c.extend first) second := by
  induction first generalizing c with
  | nil => simp [RunsBy, extend]
  | cons item rest ih =>
    have cons : c.extend (item :: rest) = (c.extend [item]).extend rest :=
      extend_append c [item] rest
    rw [List.cons_append, RunsBy, RunsBy, ih, cons, and_assoc]

/-- What stands for something still does when a context grows. -/
def Grows (knows : Context → Path → Prop) : Prop :=
  ∀ ⦃c d : Context⦄, c.Within d → ∀ p, knows c p → knows d p

variable (grows : Grows knows)
include grows

theorem RunsBy.mono {items : List Item} (runs : RunsBy knows c items) (within : c.Within d) :
    RunsBy knows d items := by
  induction items generalizing c d with
  | nil => exact True.intro
  | cons item rest ih =>
    obtain ⟨here, later⟩ := runs
    exact ⟨fun p member => grows within p (here p member), ih later (within.extend_both [item])⟩

theorem runsBy_of_forall {items : List Item}
    (each : ∀ item ∈ items, ∀ p ∈ item.evaluated, knows c p) : RunsBy knows c items := by
  induction items generalizing c with
  | nil => exact True.intro
  | cons item rest ih =>
    refine ⟨each item List.mem_cons_self, ih fun other member p isUsed => ?_⟩
    exact grows (.extend c [item]) p (each other (List.mem_cons_of_mem _ member) p isUsed)

theorem runsBy_flatten {chunks : List (List Item)}
    (each : ∀ chunk ∈ chunks, RunsBy knows c chunk) : RunsBy knows c chunks.flatten := by
  induction chunks generalizing c with
  | nil => exact True.intro
  | cons chunk rest ih =>
    rw [List.flatten_cons, runsBy_append]
    refine ⟨each chunk List.mem_cons_self, ih fun other member => ?_⟩
    exact (each other (List.mem_cons_of_mem _ member)).mono grows (.extend c chunk)

theorem RunsBy.resolves {items : List Item} (runs : RunsBy knows c items) :
    ∀ item ∈ items, ∀ p ∈ item.evaluated, knows (c.extend items) p := by
  induction items generalizing c with
  | nil => exact fun item member => nomatch member
  | cons item rest ih =>
    obtain ⟨here, later⟩ := runs
    intro other member p isUsed
    rw [← List.singleton_append, extend_append]
    rcases List.mem_cons.mp member with rfl | member
    · exact grows (.extend _ rest) p (grows (.extend c [other]) p (here p isUsed))
    · exact ih later other member p isUsed

end RunsBy

theorem grows_resolves : Grows Resolves := fun _ _ within _ resolves => resolves.mono within

theorem runs_iff {items : List Item} : c.Runs items ↔ RunsBy Resolves c items := by
  induction items generalizing c with
  | nil => exact Iff.rfl
  | cons item rest ih => rw [Runs, RunsBy, ih]

theorem runs_append {first second : List Item} :
    c.Runs (first ++ second) ↔ c.Runs first ∧ (c.extend first).Runs second := by
  simp only [runs_iff, runsBy_append]

theorem runs_of_forall {items : List Item}
    (each : ∀ item ∈ items, ∀ p ∈ item.evaluated, c.Resolves p) : c.Runs items :=
  runs_iff.mpr (runsBy_of_forall grows_resolves each)

theorem runs_flatten {chunks : List (List Item)} (each : ∀ chunk ∈ chunks, c.Runs chunk) :
    c.Runs chunks.flatten :=
  runs_iff.mpr (runsBy_flatten grows_resolves fun chunk member => runs_iff.mp (each chunk member))

theorem resolves_library {i : Import} {id : String} (isLibrary : Library i id)
    (imported : i ∈ c.imports) (rest : Path) : c.Resolves (id :: rest) := by
  obtain ⟨line, inBlock, made⟩ := Import.block_line isLibrary.named imported
  exact .library line i id rest imported inBlock made isLibrary

theorem resolves_foreign {module id : String} (imported : .ofModule module ∈ c.imports)
    (isThere : c.elsewhere module id) : c.Resolves [Name.moduleAlias module, id] := by
  obtain ⟨line, inBlock, made⟩ := Import.block_line (named_ofModule module) imported
  exact .foreign line module id imported inBlock made isThere

theorem resolves_foreignMember {module owner id : String} (imported : .ofModule module ∈ c.imports)
    (isThere : c.memberElsewhere module owner id) :
    c.Resolves [Name.moduleAlias module, owner, id] := by
  obtain ⟨line, inBlock, made⟩ := Import.block_line (named_ofModule module) imported
  exact .foreignMember line module owner id imported inBlock made isThere

def Covers (c : Context) (locals : List String) (paths : List Path) : Prop :=
  ∀ p ∈ paths, p.startsIn locals = true ∨ c.Resolves p

variable {locals : List String} {paths : List Path}

@[simp] theorem covers_nil : c.Covers locals [] := by simp [Covers]

@[simp] theorem covers_append {first second : List Path} :
    c.Covers locals (first ++ second) ↔ c.Covers locals first ∧ c.Covers locals second := by
  simp [Covers, or_imp, forall_and]

@[simp] theorem covers_cons {p : Path} :
    c.Covers locals (p :: paths) ↔ (p.startsIn locals = true ∨ c.Resolves p) ∧
      c.Covers locals paths := by
  simp [Covers]

theorem covers_flatMap {α : Type} {xs : List α} {f : α → List Path} :
    c.Covers locals (xs.flatMap f) ↔ ∀ x ∈ xs, c.Covers locals (f x) := by
  simp only [Covers, List.mem_flatMap]
  exact ⟨fun all x member p isPath => all p ⟨x, member, isPath⟩,
    fun all p ⟨x, member, isPath⟩ => all x member p isPath⟩

theorem covers_path {p : Path} (resolves : c.Resolves p) : c.Covers locals [p] := by
  simp [resolves]

theorem Covers.resolves (covered : c.Covers [] paths) : ∀ p ∈ paths, c.Resolves p := by
  intro p member
  rcases covered p member with startsHere | resolves
  · cases p <;> simp [Path.startsIn] at startsHere
  · exact resolves

theorem Covers.mono {more : List String} (covered : c.Covers locals paths) (subset : locals ⊆ more) :
    c.Covers more paths := by
  intro p member
  refine (covered p member).imp_left fun startsHere => ?_
  cases p with
  | nil => cases startsHere
  | cons id rest =>
    rw [Code.Path.startsIn_cons, List.contains_iff_mem] at startsHere ⊢
    exact subset startsHere

theorem covers_freePaths {bound : List String} (covered : c.Covers (bound ++ locals) paths) :
    c.Covers locals (freePaths bound paths) := by
  intro p member
  obtain ⟨member, free⟩ := Code.mem_freePaths.mp member
  refine (covered p member).imp_left fun startsHere => ?_
  cases p with
  | nil => cases startsHere
  | cons id rest =>
    rw [Code.Path.startsIn_cons] at startsHere free ⊢
    simp_all

end Context

end ProtoBindings.Value
