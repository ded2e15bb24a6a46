import ProtoBindings.Proofs.Value.Imports

namespace ProtoBindings.Value

open Code (Path inClass nameInClass)

/-- The definition that a name stands for after the items: the last that binds it. -/
def lastDefinition? (items : List Item) (id : String) : Option Item :=
  items.reverse.find? (·.defines.contains id)

inductive Referent
  | definition (item : Item)
  | imported (i : Import)
  | language

/-- What a name of a module stands for when the imports and the items have been gone through. Of several
    that bind it the last counts, and a definition comes after all imports. -/
inductive StandsFor (imports : List Import) (items : List Item) (id : String) : Referent → Prop
  | definition (item) : lastDefinition? items id = some item → StandsFor imports items id (.definition item)
  | imported (i) : lastDefinition? items id = none → i ∈ imports → i.bound = id → i.BindsLast imports →
      StandsFor imports items id (.imported i)
  | language : lastDefinition? items id = none → (∀ i ∈ imports, i.bound ≠ id) → id ∈ builtins →
      StandsFor imports items id .language

/-- Paths whose first name stands for something that has what the rest of the path asks for. -/
inductive Context.Finds (c : Context) (items : List Item) : Path → Prop
  | name (id referent) : StandsFor c.imports items id referent → Finds c items [id]
  | library (i id rest) : StandsFor c.imports items id (.imported i) → Library i id →
      Finds c items (id :: rest)
  | member (item owner id) : StandsFor c.imports items owner (.definition item) →
      (owner, id) ∈ item.members → Finds c items [owner, id]
  | foreign (module id) :
      StandsFor c.imports items (Name.moduleAlias module) (.imported (.ofModule module)) →
      c.elsewhere module id → Finds c items [Name.moduleAlias module, id]
  | foreignMember (module owner id) :
      StandsFor c.imports items (Name.moduleAlias module) (.imported (.ofModule module)) →
      c.memberElsewhere module owner id → Finds c items [Name.moduleAlias module, owner, id]

/-- A module that refers to nothing that is not there. Each definition finds what it evaluates among the
    imports and the definitions before it, and the bodies of functions find the rest in the whole module. -/
structure Module.SelfContained (m : Module) (c : Context) : Prop where
  evaluated : ∀ before item after, m.items = before ++ item :: after →
    ∀ p ∈ item.evaluated, c.Finds before p
  concealed : ∀ item ∈ m.items, item.concealed = []
  deferred : ∀ item ∈ m.items, ∀ p ∈ item.deferred, c.Finds m.items p

/-- The members of a module are there for all to see: enum classes take the names of their members, and
    nothing without them is called like what has members. -/
structure Module.KeepsMembers (m : Module) : Prop where
  takes : ∀ e ∈ m.enums, e.TakesNames
  owners : ∀ item ∈ m.items, ∀ owned ∈ item.members, ∀ other ∈ m.items, owned.1 ∈ other.defines →
    owned ∈ other.members

/-- No import is hidden by another or by a definition, and the body of no class hides what it evaluates. -/
structure Module.Clear (m : Module) : Prop extends m.KeepsMembers where
  imports : ∀ i ∈ m.imports, ∀ j ∈ m.imports, i.bound = j.bound → i = j
  definitions : ∀ i ∈ m.imports, i.bound ∉ m.definitions
  shown : ∀ d ∈ m.declarations, d.ShowsDefaults
  free : ∀ d ∈ m.declarations, d.DefaultsFree

instance Module.decidableKeepsMembers (m : Module) : Decidable m.KeepsMembers :=
  decidable_of_iff (_ ∧ _) ⟨fun ⟨takes, owners⟩ => ⟨takes, owners⟩, fun ⟨takes, owners⟩ => ⟨takes, owners⟩⟩

instance Module.decidableClear (m : Module) : Decidable m.Clear :=
  decidable_of_iff (m.KeepsMembers ∧ _ ∧ _ ∧ _ ∧ _)
    ⟨fun ⟨keeps, imports, definitions, shown, free⟩ => ⟨keeps, imports, definitions, shown, free⟩,
      fun ⟨keeps, imports, definitions, shown, free⟩ => ⟨keeps, imports, definitions, shown, free⟩⟩

section Class

variable {className : String} {taken : List String} {attributes : List Attribute}

theorem defaultPathsFrom_free
    (first : ∀ a ∈ attributes, ∀ p ∈ inClass className a.default.paths, p.startsIn taken = false)
    (free : attributes.Pairwise fun earlier later => ∀ p ∈ inClass className later.default.paths,
      p.startsIn [nameInClass className earlier.name] = false) :
    ∀ entry ∈ DataClass.defaultPathsFrom className taken attributes,
      entry.2.startsIn entry.1 = false := by
  induction attributes generalizing taken with
  | nil => exact fun entry isEntry => nomatch isEntry
  | cons a rest ih =>
    obtain ⟨here, later⟩ := List.pairwise_cons.mp free
    rw [DataClass.defaultPathsFrom, List.forall_mem_append]
    constructor
    · intro entry isEntry
      obtain ⟨p, isPath, rfl⟩ := List.mem_map.mp isEntry
      exact first a List.mem_cons_self p isPath
    · refine ih (fun b isLater p isPath => ?_) later
      have before := first b (List.mem_cons_of_mem _ isLater) p isPath
      have own := here b isLater p isPath
      rw [Code.Path.startsIn_append_names, before, own]
      rfl

theorem DataClass.concealed_eq_nil {d : DataClass} (free : (Declaration.dataClass d).DefaultsFree) :
    d.item.concealed = [] := by
  have each : ∀ entry ∈ d.defaultPaths, entry.2.startsIn entry.1 = false :=
    defaultPathsFrom_free (fun _ _ p _ => by cases p <;> rfl) free
  rw [DataClass.item, List.map_eq_nil_iff, List.filter_eq_nil_iff]
  intro entry isEntry
  simp [each entry isEntry]

end Class

section Last

variable {m : Module} {before after : List Item}

theorem lastDefinition?_mem {items : List Item} {id : String} {item : Item}
    (last : lastDefinition? items id = some item) : item ∈ items ∧ id ∈ item.defines := by
  have found : items.reverse.find? (·.defines.contains id) = some item := last
  have defines := List.find?_some found
  exact ⟨List.mem_reverse.mp (List.mem_of_find?_eq_some found), List.contains_iff_mem.mp defines⟩

theorem exists_lastDefinition {items : List Item} {id : String} (defined : id ∈ items.flatMap (·.defines)) :
    ∃ item, lastDefinition? items id = some item := by
  obtain ⟨item, isItem, defines⟩ := List.mem_flatMap.mp defined
  refine Option.isSome_iff_exists.mp (List.find?_isSome.mpr ⟨item, List.mem_reverse.mpr isItem, ?_⟩)
  exact List.contains_iff_mem.mpr defines

theorem lastDefinition?_eq_none {items : List Item} {id : String}
    (undefined : id ∉ items.flatMap (·.defines)) : lastDefinition? items id = none := by
  rw [lastDefinition?, List.find?_eq_none]
  intro item isItem defines
  refine undefined (List.mem_flatMap.mpr ⟨item, List.mem_reverse.mp isItem, ?_⟩)
  exact List.contains_iff_mem.mp defines

theorem Module.KeepsMembers.last (keeps : m.KeepsMembers) (split : m.items = before ++ after)
    {owned : String × String} (isMember : owned ∈ before.flatMap (·.members)) :
    ∃ item, lastDefinition? before owned.1 = some item ∧ owned ∈ item.members := by
  have inModule {item : Item} (isBefore : item ∈ before) : item ∈ m.items :=
    split ▸ List.mem_append_left after isBefore
  obtain ⟨item, isItem, isOwn⟩ := List.mem_flatMap.mp isMember
  have defined : owned.1 ∈ before.flatMap (·.defines) :=
    List.mem_flatMap.mpr ⟨item, isItem, Module.owner_defined (inModule isItem) isOwn⟩
  obtain ⟨last, isLast⟩ := exists_lastDefinition defined
  obtain ⟨isBefore, defines⟩ := lastDefinition?_mem isLast
  exact ⟨last, isLast, keeps.owners item (inModule isItem) owned isOwn last (inModule isBefore) defines⟩

end Last

section Clear

variable {m : Module} {c : Context} {before after : List Item} {id : String}
  (clear : m.Clear) (named : ∀ i ∈ m.imports, i.Named) (split : m.items = before ++ after)
include clear named split

theorem Module.Clear.standsFor_import {i : Import} (imported : i ∈ m.imports) :
    StandsFor m.imports before i.bound (.imported i) := by
  have undefined : i.bound ∉ before.flatMap (·.defines) := by
    intro defined
    refine clear.definitions i imported ?_
    rw [Module.definitions, split, List.flatMap_append]
    exact List.mem_append_left _ defined
  refine .imported i (lastDefinition?_eq_none undefined) imported rfl ?_
  exact Import.bindsLast_of_only (named i imported) imported fun j isImport same =>
    clear.imports j isImport i imported same

theorem Module.Clear.standsFor_builtin (isBuiltin : id ∈ builtins) :
    ∃ referent, StandsFor m.imports before id referent := by
  by_cases defined : id ∈ before.flatMap (·.defines)
  · obtain ⟨item, last⟩ := exists_lastDefinition defined
    exact ⟨_, .definition item last⟩
  · by_cases imported : ∃ i ∈ m.imports, i.bound = id
    · obtain ⟨i, isImport, rfl⟩ := imported
      exact ⟨_, clear.standsFor_import named split isImport⟩
    · refine ⟨_, .language (lastDefinition?_eq_none defined) (fun i isImport same => ?_) isBuiltin⟩
      exact imported ⟨i, isImport, same⟩

/-- What something offers by a name is what the name stands for. -/
theorem Module.Clear.finds (imports : c.imports = m.imports) (fresh : c.defined = [] ∧ c.members = [])
    {p : Path} (resolves : (c.extend before).Resolves p) : c.Finds before p := by
  have stands {i : Import} (imported : i ∈ c.imports) :
      StandsFor c.imports before i.bound (.imported i) := by
    rw [imports] at imported ⊢
    exact clear.standsFor_import named split imported
  cases resolves with
  | builtin id isBuiltin =>
    obtain ⟨referent, stands⟩ := clear.standsFor_builtin named split isBuiltin
    exact .name id referent (imports ▸ stands)
  | library line i id rest imported _ _ isLibrary =>
    exact .library i id rest (isLibrary.bound_eq ▸ stands imported) isLibrary
  | own id defined =>
    have defined : id ∈ before.flatMap (·.defines) := by simpa [Context.extend, fresh.1] using defined
    obtain ⟨item, last⟩ := exists_lastDefinition defined
    exact .name id _ (.definition item last)
  | member owner id isMember =>
    have isMember : (owner, id) ∈ before.flatMap (·.members) := by
      simpa [Context.extend, fresh.2] using isMember
    obtain ⟨item, last, hasMember⟩ := clear.last split isMember
    exact .member item owner id (.definition item last) hasMember
  | foreign line module id imported _ _ isThere =>
    exact .foreign module id (bound_ofModule module ▸ stands imported) isThere
  | foreignMember line module owner id imported _ _ isThere =>
    exact .foreignMember module owner id (bound_ofModule module ▸ stands imported) isThere

end Clear

section Built

variable {mapper : Mapper} {unit : Schema.FileUnit} {module : Module} {c : Context}
  {declarations : List (List Declaration)} {functions : List (List Code.Function)}

theorem Module.concealed_eq_nil (free : ∀ d ∈ module.declarations, d.DefaultsFree) :
    ∀ item ∈ module.items, item.concealed = [] := by
  intro item isItem
  simp only [Module.items, Module.bodyItems, List.mem_append] at isItem
  rcases isItem with (((isEnum | isDeclaration) | isTable) | isFunction) | isParser
  · obtain ⟨e, _, rfl⟩ := List.mem_map.mp isEnum
    rfl
  · obtain ⟨d, isDeclared, rfl⟩ := List.mem_map.mp isDeclaration
    cases d with
    | dataClass definition => exact DataClass.concealed_eq_nil (free _ isDeclared)
    | union => rfl
  · obtain ⟨t, _, rfl⟩ := List.mem_map.mp isTable
    rfl
  · obtain ⟨f, _, rfl⟩ := List.mem_map.mp isFunction
    rfl
  · obtain ⟨p, _, rfl⟩ := List.mem_map.mp isParser
    rfl

theorem ModuleBuilt.selfContained (built : ModuleBuilt mapper unit module declarations functions)
    (imported : c.imports = module.imports)
    (served : ∀ m ∈ unit.allMessages, ∀ f ∈ m.allFields, ∀ e ∈ f.elements,
      (c.extend module.items).Serves mapper e)
    (ordinary : ∀ m ∈ unit.allMessages, ∀ o ∈ m.oneofs, ∀ f ∈ o.fields, f.isMap = false)
    (clear : module.Clear) (named : ∀ i ∈ module.imports, i.Named)
    (defaults : ∀ m ∈ unit.allMessages, ∀ f ∈ m.allFields, ∀ e ∈ f.elements,
      (c.extend (module.enums.map (·.item))).ServesDefault mapper e)
    (fresh : c.defined = [] ∧ c.members = []) : module.SelfContained c := by
  have takes : ∀ e ∈ unit.allEnums, (enumClass e).TakesNames := fun e isEnum =>
    clear.takes _ (built.enums ▸ List.mem_map_of_mem isEnum)
  have runs := built.runs imported served ordinary takes defaults clear.shown
  refine ⟨fun before item after split p isPath => ?_, Module.concealed_eq_nil clear.free,
    fun item isItem p isPath => ?_⟩
  · rw [split, Context.runs_append] at runs
    exact clear.finds named split imported fresh (runs.2.1 p isPath)
  · have resolves := built.resolves imported served ordinary takes item isItem p isPath
    exact clear.finds named (List.append_nil _).symm imported fresh resolves

end Built

def Module.mayFind (m : Module) (items : List Item) : Path → Bool
  | [] => false
  | id :: rest =>
    match lastDefinition? items id with
    | some item => rest.isEmpty || item.members.any fun (owner, name) => owner == id && rest == [name]
    | none => m.imports.any (·.bound == id) || builtins.contains id

def Module.losesFrom (m : Module) (before : List Item) : List Item → Bool
  | [] => false
  | item :: rest => item.evaluated.any (!m.mayFind before ·) || !item.concealed.isEmpty ||
    item.deferred.any (!m.mayFind m.items ·) || m.losesFrom (before ++ [item]) rest

theorem Module.mayFind_of_finds {m : Module} {c : Context} {items : List Item}
    (imports : c.imports = m.imports) {p : Path} (finds : c.Finds items p) :
    m.mayFind items p = true := by
  have ofImport {i : Import} {id : String} (stands : StandsFor c.imports items id (.imported i))
      (rest : Path) : m.mayFind items (id :: rest) = true := by
    cases stands with
    | imported _ undefined imported bound _ =>
      have known : m.imports.any (·.bound == id) = true :=
        List.any_eq_true.mpr ⟨i, imports ▸ imported, beq_iff_eq.mpr bound⟩
      simp [mayFind, undefined, known]
  cases finds with
  | name id referent stands =>
    cases stands with
    | definition item last => simp [mayFind, last]
    | imported i undefined imported bound binds =>
      exact ofImport (.imported i undefined imported bound binds) []
    | language undefined _ isBuiltin => simp [mayFind, undefined, isBuiltin]
  | library i id rest stands _ => exact ofImport stands rest
  | member item owner id stands isMember =>
    cases stands with
    | definition _ last =>
      have known : (item.members.any fun (other, name) => other == owner && [id] == [name]) = true :=
        List.any_eq_true.mpr ⟨(owner, id), isMember, by simp⟩
      simp only [mayFind, last, known, Bool.or_true]
  | foreign module id stands _ => exact ofImport stands [id]
  | foreignMember module owner id stands _ => exact ofImport stands [owner, id]

theorem Module.not_selfContained_of_loses {m : Module} {c : Context} (imports : c.imports = m.imports)
    (loses : m.losesFrom [] m.items = true) : ¬ m.SelfContained c := by
  intro selfContained
  have keeps : ∀ before rest, m.items = before ++ rest → m.losesFrom before rest = false := by
    intro before rest split
    induction rest generalizing before with
    | nil => rfl
    | cons item rest ih =>
      have isItem : item ∈ m.items := split ▸ List.mem_append_right _ List.mem_cons_self
      have later := ih (before ++ [item]) (by simpa using split)
      have evaluated : item.evaluated.any (!m.mayFind before ·) = false :=
        List.any_eq_false.mpr fun p isPath => by
          simp [mayFind_of_finds imports (selfContained.evaluated before item rest split p isPath)]
      have deferred : item.deferred.any (!m.mayFind m.items ·) = false :=
        List.any_eq_false.mpr fun p isPath => by
          simp [mayFind_of_finds imports (selfContained.deferred item isItem p isPath)]
      simp [losesFrom, evaluated, selfContained.concealed item isItem, deferred, later]
  rw [keeps [] m.items rfl] at loses
  cases loses

end ProtoBindings.Value
