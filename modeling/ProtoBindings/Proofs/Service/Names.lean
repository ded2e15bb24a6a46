import Mathlib.Data.List.Perm.Basic
import Mathlib.Data.List.TakeWhile
import ProtoBindings.Proofs.Code.ClassScope
import ProtoBindings.Proofs.Name.Word
import ProtoBindings.Proofs.Result
import ProtoBindings.Service.Module

namespace ProtoBindings.Service

open Code (Path Shown blockPaths nameInClass)
open Name (HasSmall IsSnake IsWord snakeCase)
open Schema (FileUnit Method)

structure Definition where
  name : String
  rpc : Option Binding := none
  deriving DecidableEq, Repr

namespace Bound

def constants (b : Bound) : List Definition :=
  ⟨serviceConstant b.service, none⟩ :: b.bindings.map fun r => ⟨r.constant, some r⟩

def code (b : Bound) : List Definition :=
  b.defaults.map (⟨·.name, none⟩) ++ b.classes.map (⟨·.name, none⟩)

end Bound

namespace Module

def bindings (m : Module) : List Binding := m.services.flatMap (·.bindings)

def definitions (m : Module) : List Definition :=
  m.services.flatMap (·.constants) ++ [⟨adapterName, none⟩] ++ m.services.flatMap (·.code)

/-- The remote method that a name stands for once the module is imported: the last definition of a
    name is the one that stays. -/
def rpcNamed (m : Module) (name : String) : Option Binding :=
  (m.definitions.reverse.find? (·.name == name)).bind (·.rpc)

end Module

namespace Binding

def classPaths (b : Binding) : List Path :=
  blockPaths (b.openOnChannel :: b.clientBody) ++
    (b.handlerEntry (methodName ·.method)).2.paths ++ (b.handlerEntry partialAttribute).2.paths

end Binding

def methodKey (s : Schema.Service) (m : Method) : String :=
  snakeCase s.name ++ "_" ++ snakeCase m.name

structure NamesApart (unit : FileUnit) : Prop where
  services : (unit.services.map (snakeCase ·.name)).Nodup
  methods : (unit.services.flatMap fun s => s.methods.map (methodKey s)).Nodup
  constants : ∀ s ∈ unit.services, ∀ t ∈ unit.services, ∀ m ∈ t.methods,
    snakeCase s.name ++ "_name" ≠ "_" ++ methodKey t m

structure IsWords (unit : FileUnit) : Prop where
  services : ∀ s ∈ unit.services, IsWord s.name
  methods : ∀ s ∈ unit.services, ∀ m ∈ s.methods, IsWord m.name

def methodKeys (unit : FileUnit) : List String :=
  unit.services.flatMap fun s => s.methods.map (methodKey s)

def constantKeys (unit : FileUnit) : List String :=
  unit.services.map (snakeCase ·.name ++ "_name") ++ (methodKeys unit).map ("_" ++ ·)

def classSuffixes : List String := ["Servicer", "Stub", "Partial"]

def classNames (s : Schema.Service) : List String := classSuffixes.map (s.name ++ ·)

section Spelling

variable {s : Schema.Service} {m : Method}

theorem serviceConstant_eq : serviceConstant s = Unicode.upper (snakeCase s.name ++ "_name") := by
  rw [Name.upper_append]
  rfl

theorem methodConstant_eq : methodConstant s m = Unicode.upper ("_" ++ methodKey s m) := by
  have underscore : Unicode.upper "_" = "_" := rfl
  simp only [methodKey, Name.upper_append, underscore, methodConstant, Name.upperSnakeCase,
    String.append_assoc]

theorem unimplementedName_eq : unimplementedName s m = "_" ++ methodKey s m ++ "_unimplemented" := by
  simp only [methodKey, unimplementedName, String.append_assoc]

end Spelling

/-- What a module takes from the file it is made of. -/
structure ModuleBuilt (unit : FileUnit) (module : Module) : Prop where
  services : module.services.map (·.service) = unit.services
  methods : ∀ b ∈ module.services, b.bindings.map (·.method) = b.service.methods
  owner : ∀ b ∈ module.services, ∀ r ∈ b.bindings, r.service = b.service

theorem Binding.of_eq_ok {mapper : Mapper} {s : Schema.Service} {m : Method} {r : Binding}
    (result : Binding.of mapper s m = .ok r) : r.service = s ∧ r.method = m := by
  simp only [Binding.of, Result.bind_eq_ok, Result.pure_eq_ok] at result
  obtain ⟨request, _, response, _, rfl⟩ := result
  exact ⟨rfl, rfl⟩

theorem Bound.of_eq_ok {mapper : Mapper} {s : Schema.Service} {b : Bound}
    (result : Bound.of mapper s = .ok b) :
    b.service = s ∧ List.Forall₂ (fun m r => Binding.of mapper s m = .ok r) s.methods b.bindings := by
  simp only [Bound.of, Result.bind_eq_ok, Result.pure_eq_ok, Result.mapM_eq_ok] at result
  obtain ⟨bindings, walk, rfl⟩ := result
  exact ⟨rfl, walk⟩

theorem Module.binding_of {mapper : Mapper} {unit : FileUnit} {module : Module}
    (result : Module.ofUnit mapper unit = .ok module) {b : Bound} (isBound : b ∈ module.services) :
    b.service ∈ unit.services ∧
      List.Forall₂ (fun m r => Binding.of mapper b.service m = .ok r) b.service.methods b.bindings := by
  simp only [Module.ofUnit, Result.bind_eq_ok, Result.pure_eq_ok, Result.mapM_eq_ok] at result
  obtain ⟨services, walk, rfl⟩ := result
  obtain ⟨s, isService, found⟩ := walk.exists_left isBound
  obtain ⟨rfl, methods⟩ := Bound.of_eq_ok found
  exact ⟨isService, methods⟩

theorem Module.ofUnit_eq_ok {mapper : Mapper} {unit : FileUnit} {module : Module}
    (result : Module.ofUnit mapper unit = .ok module) : ModuleBuilt unit module := by
  constructor
  · simp only [Module.ofUnit, Result.bind_eq_ok, Result.pure_eq_ok, Result.mapM_eq_ok] at result
    obtain ⟨services, walk, rfl⟩ := result
    exact (walk.map_eq fun s b found => (Bound.of_eq_ok found).1.symm).symm.trans (List.map_id _)
  · intro b isBound
    obtain ⟨_, methods⟩ := Module.binding_of result isBound
    exact (methods.map_eq fun m r found => (Binding.of_eq_ok found).2.symm).symm.trans (List.map_id _)
  · intro b isBound r isBinding
    obtain ⟨_, methods⟩ := Module.binding_of result isBound
    obtain ⟨m, _, found⟩ := methods.exists_left isBinding
    exact (Binding.of_eq_ok found).1

section Built

variable {unit : FileUnit} {module : Module} (built : ModuleBuilt unit module)
include built

theorem ModuleBuilt.bound_map {b : Bound} (isBound : b ∈ module.services) {α : Type}
    (f : Schema.Service → Method → α) :
    b.bindings.map (fun r => f r.service r.method) = b.service.methods.map (f b.service) := by
  rw [← built.methods b isBound, List.map_map]
  refine List.map_congr_left fun r isBinding => ?_
  rw [built.owner b isBound r isBinding]
  rfl

theorem ModuleBuilt.bindings_map {α : Type} (f : Schema.Service → Method → α) :
    module.bindings.map (fun r => f r.service r.method) =
      unit.services.flatMap fun s => s.methods.map (f s) := by
  rw [Module.bindings, List.map_flatMap, ← built.services, List.flatMap_map]
  exact List.flatMap_congr fun b isBound => built.bound_map isBound f

theorem ModuleBuilt.keys :
    module.bindings.map (fun r => methodKey r.service r.method) = methodKeys unit :=
  built.bindings_map methodKey

theorem ModuleBuilt.names_perm : (module.definitions.map (·.name)).Perm
    ((unit.services.map serviceConstant ++ module.bindings.map (·.constant)) ++
      ((adapterName :: module.bindings.map (·.unimplemented)) ++ unit.services.flatMap classNames)) := by
  have constants : ((module.services.flatMap (·.constants)).map (·.name)).Perm
      (unit.services.map serviceConstant ++ module.bindings.map (·.constant)) := by
    rw [List.map_flatMap, ← built.services, List.map_map, Module.bindings, List.map_flatMap]
    have each (b : Bound) : b.constants.map (·.name) =
        serviceConstant b.service :: b.bindings.map (·.constant) := by
      simp [Bound.constants, Function.comp_def]
    rw [List.flatMap_congr fun b _ => each b]
    exact (List.map_append_flatMap_perm _ _ _).symm
  have code : ((module.services.flatMap (·.code)).map (·.name)).Perm
      (module.bindings.map (·.unimplemented) ++ unit.services.flatMap classNames) := by
    rw [List.map_flatMap, ← built.services, List.flatMap_map, Module.bindings, List.map_flatMap]
    have each (b : Bound) : b.code.map (·.name) =
        b.bindings.map (·.unimplemented) ++ classNames b.service := by
      simp [Bound.code, Bound.defaults, Bound.classes, classNames, classSuffixes,
        Function.comp_def, Binding.unimplementedFunction, servicerClass, clientClass, partialClass]
    rw [List.flatMap_congr fun b _ => each b]
    exact (List.flatMap_append_perm _ _ _).symm
  rw [Module.definitions, List.map_append, List.map_append, List.append_assoc]
  exact constants.append (code.cons adapterName)

theorem ModuleBuilt.constants :
    unit.services.map serviceConstant ++ module.bindings.map (·.constant) =
      (unit.services.map (snakeCase ·.name ++ "_name") ++ (methodKeys unit).map ("_" ++ ·)).map
        Unicode.upper := by
  have service : serviceConstant = Unicode.upper ∘ fun s => snakeCase s.name ++ "_name" :=
    funext fun s => serviceConstant_eq
  have method : (·.constant) = Unicode.upper ∘ ("_" ++ ·) ∘
      fun r : Binding => methodKey r.service r.method := funext fun r => methodConstant_eq
  rw [List.map_append, List.map_map, List.map_map, ← built.keys, List.map_map, service, method]
  rfl

theorem ModuleBuilt.functions : module.bindings.map (·.unimplemented) =
    (methodKeys unit).map fun key => "_" ++ key ++ "_unimplemented" := by
  rw [← built.keys, List.map_map]
  exact List.map_congr_left fun r _ => unimplementedName_eq

end Built

section Kinds

theorem class_inj {s t first second : String} (ofFirst : first ∈ classSuffixes)
    (ofSecond : second ∈ classSuffixes) (same : s ++ first = t ++ second) : s = t ∧ first = second := by
  have apart : ∀ first ∈ classSuffixes, ∀ second ∈ classSuffixes, first ≠ second →
      Name.Apart first second := by decide
  by_cases suffix : first = second
  · subst suffix
    exact ⟨by simpa using same, rfl⟩
  · exact absurd same ((apart first ofFirst second ofSecond suffix).append_ne s t)

theorem nodup_classNames {services : List Schema.Service} (distinct : (services.map (·.name)).Nodup) :
    (services.flatMap classNames).Nodup := by
  rw [List.nodup_flatMap]
  constructor
  · intro s _
    have suffixes : classSuffixes.Nodup := by decide
    exact suffixes.map_on fun first ofFirst second ofSecond same =>
      (class_inj ofFirst ofSecond same).2
  · apply (List.pairwise_map.mp distinct).imp
    intro s t different name ofFirst ofSecond
    obtain ⟨first, isFirst, rfl⟩ := List.mem_map.mp ofFirst
    obtain ⟨second, isSecond, same⟩ := List.mem_map.mp ofSecond
    exact different (class_inj isSecond isFirst same).1.symm

variable {unit : FileUnit}

theorem nodup_functions : (adapterName :: (methodKeys unit).map fun key =>
    "_" ++ key ++ "_unimplemented").Nodup ↔ (methodKeys unit).Nodup := by
  have injective : Function.Injective fun key : String => "_" ++ key ++ "_unimplemented" :=
    fun key other same => by simpa using same
  have adapter : adapterName ∉ (methodKeys unit).map fun key => "_" ++ key ++ "_unimplemented" := by
    intro isFunction
    obtain ⟨key, _, same⟩ := List.mem_map.mp isFunction
    have apart : Name.Apart "_unimplemented" adapterName := by decide
    exact apart.append_ne ("_" ++ key) "" same
  rw [List.nodup_cons, List.nodup_map_iff injective, and_iff_right adapter]

theorem code_disjoint {services : List Schema.Service} :
    ∀ name ∈ adapterName :: (methodKeys unit).map fun key => "_" ++ key ++ "_unimplemented",
      ∀ other ∈ services.flatMap classNames, name ≠ other := by
  intro name isFunction other isClass
  obtain ⟨s, _, ofService⟩ := List.mem_flatMap.mp isClass
  obtain ⟨suffix, isSuffix, rfl⟩ := List.mem_map.mp ofService
  have apart : ∀ suffix ∈ classSuffixes,
      Name.Apart adapterName suffix ∧ Name.Apart "_unimplemented" suffix := by decide
  obtain ⟨ofAdapter, ofDefault⟩ := apart suffix isSuffix
  rcases List.mem_cons.mp isFunction with rfl | isFunction
  · exact ofAdapter.append_ne "" s.name
  · obtain ⟨key, _, rfl⟩ := List.mem_map.mp isFunction
    exact ofDefault.append_ne ("_" ++ key) s.name

theorem classNames_hasSmall {s : Schema.Service} {className : String}
    (isClass : className ∈ classNames s) : HasSmall className := by
  have suffixes : ∀ suffix ∈ classSuffixes, HasSmall suffix := by decide
  obtain ⟨suffix, isSuffix, rfl⟩ := List.mem_map.mp isClass
  exact (suffixes suffix isSuffix).append_left _

theorem code_hasSmall {services : List Schema.Service} :
    ∀ name ∈ (adapterName :: (methodKeys unit).map fun key => "_" ++ key ++ "_unimplemented") ++
      services.flatMap classNames, HasSmall name := by
  intro name isCode
  rcases List.mem_append.mp isCode with isFunction | isClass
  · rcases List.mem_cons.mp isFunction with rfl | isFunction
    · decide
    · obtain ⟨key, _, rfl⟩ := List.mem_map.mp isFunction
      have ending : HasSmall "_unimplemented" := by decide
      exact ending.append_left _
  · obtain ⟨s, _, ofService⟩ := List.mem_flatMap.mp isClass
    exact classNames_hasSmall ofService

end Kinds

section Distinct

variable {unit : FileUnit} {module : Module} (built : ModuleBuilt unit module) (words : IsWords unit)

theorem nodup_constantKeys : (constantKeys unit).Nodup ↔ NamesApart unit := by
  have services : (unit.services.map (snakeCase ·.name ++ "_name")).Nodup ↔
      (unit.services.map (snakeCase ·.name)).Nodup := by
    have injective : Function.Injective (· ++ "_name") := fun s t same => by simpa using same
    have whole := List.nodup_map_iff (l := unit.services.map (snakeCase ·.name)) injective
    rwa [List.map_map] at whole
  have methods : ((methodKeys unit).map ("_" ++ ·)).Nodup ↔ (methodKeys unit).Nodup :=
    List.nodup_map_iff fun s t same => by simpa using same
  rw [constantKeys, List.nodup_append, services, methods]
  constructor
  · rintro ⟨ofServices, ofMethods, apart⟩
    refine ⟨ofServices, ofMethods, fun s isService t isOwner m isMethod => ?_⟩
    have isKey : methodKey t m ∈ methodKeys unit :=
      List.mem_flatMap.mpr ⟨t, isOwner, List.mem_map_of_mem isMethod⟩
    exact apart _ (List.mem_map_of_mem isService) _ (List.mem_map_of_mem isKey)
  · intro apart
    refine ⟨apart.services, apart.methods, fun name isService other isMethod => ?_⟩
    obtain ⟨s, inUnit, rfl⟩ := List.mem_map.mp isService
    obtain ⟨key, isKey, rfl⟩ := List.mem_map.mp isMethod
    obtain ⟨t, isOwner, ofOwner⟩ := List.mem_flatMap.mp isKey
    obtain ⟨m, inOwner, rfl⟩ := List.mem_map.mp ofOwner
    exact apart.constants s inUnit t isOwner m inOwner

include words in
theorem isSnake_constantKeys : ∀ name ∈ constantKeys unit, IsSnake name := by
  have underscore : IsSnake "_" := by decide
  have ending : IsSnake "_name" := by decide
  intro name isConstant
  rcases List.mem_append.mp isConstant with isService | ofMethod
  · obtain ⟨s, inUnit, rfl⟩ := List.mem_map.mp isService
    exact Name.isSnake_append.mpr ⟨Name.isSnake_snakeCase (words.services s inUnit), ending⟩
  · obtain ⟨key, isKey, rfl⟩ := List.mem_map.mp ofMethod
    obtain ⟨s, inUnit, ofService⟩ := List.mem_flatMap.mp isKey
    obtain ⟨m, isMethod, rfl⟩ := List.mem_map.mp ofService
    have service := Name.isSnake_snakeCase (words.services s inUnit)
    have method := Name.isSnake_snakeCase (words.methods s inUnit m isMethod)
    simp only [methodKey, Name.isSnake_append]
    exact ⟨underscore, ⟨service, underscore⟩, method⟩

include built words

theorem ModuleBuilt.not_hasSmall_constant {r : Binding} (isBinding : r ∈ module.bindings) :
    ¬ HasSmall r.constant := by
  have isConstant : r.constant ∈ (constantKeys unit).map Unicode.upper := by
    rw [constantKeys, ← built.constants]
    exact List.mem_append_right _ (List.mem_map_of_mem isBinding)
  obtain ⟨key, isKey, same⟩ := List.mem_map.mp isConstant
  rw [← same]
  exact Name.not_hasSmall_upper (isSnake_constantKeys words key isKey)

theorem ModuleBuilt.nodup_iff : (module.definitions.map (·.name)).Nodup ↔ NamesApart unit := by
  rw [built.names_perm.nodup_iff, built.constants, built.functions, ← constantKeys]
  have constants := (Name.nodup_map_upper (isSnake_constantKeys words)).trans nodup_constantKeys
  have code : ((adapterName :: (methodKeys unit).map fun key => "_" ++ key ++ "_unimplemented") ++
      unit.services.flatMap classNames).Nodup ↔
        (methodKeys unit).Nodup ∧ (unit.services.flatMap classNames).Nodup := by
    rw [List.nodup_append, nodup_functions, and_iff_left code_disjoint]
  have kinds : ∀ name ∈ (constantKeys unit).map Unicode.upper,
      ∀ other ∈ (adapterName :: (methodKeys unit).map fun key => "_" ++ key ++ "_unimplemented") ++
        unit.services.flatMap classNames, name ≠ other := by
    rintro name isConstant other isCode rfl
    obtain ⟨key, isKey, rfl⟩ := List.mem_map.mp isConstant
    have snake := isSnake_constantKeys words key isKey
    exact Name.not_hasSmall_upper snake (code_hasSmall _ isCode)
  rw [List.nodup_append, constants, code, and_iff_left kinds, and_iff_left_iff_imp]
  intro apart
  refine ⟨apart.methods, nodup_classNames ?_⟩
  have names := apart.services
  rw [← Function.comp_def snakeCase, ← List.map_map] at names
  exact names.of_map _

end Distinct

section Uses

theorem Module.mem_definitions {module : Module} {d : Definition} {r : Binding}
    (isDefinition : d ∈ module.definitions) (isRpc : d.rpc = some r) :
    r ∈ module.bindings ∧ d.name = r.constant := by
  rw [definitions, List.mem_append, List.mem_append] at isDefinition
  rcases isDefinition with (isConstant | isAdapter) | isCode
  · obtain ⟨b, isBound, ofBound⟩ := List.mem_flatMap.mp isConstant
    rcases List.mem_cons.mp ofBound with rfl | isMethod
    · cases isRpc
    · obtain ⟨r', isBinding, rfl⟩ := List.mem_map.mp isMethod
      cases isRpc
      exact ⟨List.mem_flatMap.mpr ⟨b, isBound, isBinding⟩, rfl⟩
  · cases List.mem_singleton.mp isAdapter
    cases isRpc
  · obtain ⟨b, _, ofBound⟩ := List.mem_flatMap.mp isCode
    rcases List.mem_append.mp ofBound with isDefault | isClass
    · obtain ⟨f, _, rfl⟩ := List.mem_map.mp isDefault
      cases isRpc
    · obtain ⟨c, _, rfl⟩ := List.mem_map.mp isClass
      cases isRpc

theorem Module.rpcNamed_eq_some {module : Module} {name : String} {r : Binding}
    (named : module.rpcNamed name = some r) : r ∈ module.bindings ∧ name = r.constant := by
  obtain ⟨d, found, isRpc⟩ := Option.bind_eq_some_iff.mp named
  have isDefinition := List.mem_reverse.mp (List.mem_of_find?_eq_some found)
  obtain ⟨isBinding, sameName⟩ := Module.mem_definitions isDefinition isRpc
  have isNamed : d.name = name := by simpa using List.find?_some found
  exact ⟨isBinding, isNamed.symm.trans sameName⟩

/-- Paths that start with the constant of a method, or with a name that is not a constant. -/
def Binding.Owns (r : Binding) (paths : List Path) : Prop :=
  ∀ p ∈ paths, ∀ name, p.head? = some name → name = r.constant ∨ HasSmall name

variable {r : Binding}

@[simp] theorem Binding.owns_nil : r.Owns [] := by
  intro p none
  cases none

@[simp] theorem Binding.owns_cons {name : String} {ids : List String} {rest : List Path} :
    r.Owns ((name :: ids) :: rest) ↔ (name = r.constant ∨ HasSmall name) ∧ r.Owns rest := by
  simp [Owns]

@[simp] theorem Binding.owns_append {first second : List Path} :
    r.Owns (first ++ second) ↔ r.Owns first ∧ r.Owns second := by
  simp [Owns, or_imp, forall_and]

@[simp] theorem Binding.owns_dotted {name id : String} :
    r.Owns (dotted name id).paths ↔ name = r.constant ∨ HasSmall name := by
  simp [dotted, Code.Expr.paths, Code.Expr.dotted?]

@[simp] theorem Binding.owns_name {name : String} :
    r.Owns (Code.Expr.name name).paths ↔ name = r.constant ∨ HasSmall name := by
  simp [Code.Expr.paths]

@[simp] theorem Binding.owns_apply {callee : Code.Expr} {arguments : List Code.Expr} :
    r.Owns (callee.apply arguments).paths ↔ r.Owns callee.paths ∧ ∀ e ∈ arguments, r.Owns e.paths := by
  rw [Code.Expr.apply, Code.Expr.paths, Code.Arguments.paths_ofList, owns_append]
  refine and_congr_right fun _ => ?_
  simp only [Owns, List.mem_flatMap, forall_exists_index, and_imp]
  exact ⟨fun all e isArgument p isPath => all p e isArgument isPath,
    fun all p e isArgument isPath => all e isArgument p isPath⟩

theorem Binding.owns_outgoing : r.Owns r.outgoing.paths := by
  rw [outgoing]
  split <;> simp +decide

theorem Binding.owns_remoteCall : r.Owns r.remoteCall.paths := by
  have options : r.Owns (Code.Arguments.ofKeywords
      [("timeout", .name "timeout"), ("metadata", .name "metadata")]).paths := by
    simp +decide [Code.Arguments.paths_ofKeywords]
  have target : HasSmall "self" := by decide
  simp [remoteCall, Code.Expr.paths, Code.Arguments.paths, Code.Expr.dotted?, selfName, target,
    r.owns_outgoing, options]

theorem Binding.owns_clientBody : r.Owns (blockPaths r.clientBody) := by
  have warning : r.Owns r.deprecationWarning.paths := by
    simp +decide [deprecationWarning, Code.Stmt.paths, Code.Expr.paths, Code.Arguments.paths]
  have call := r.owns_remoteCall
  rw [clientBody, Code.blockPaths_append, owns_append]
  constructor
  · split <;> simp [blockPaths, warning]
  · split <;> simp +decide [blockPaths, Code.Stmt.paths, Code.Head.paths, Code.Expr.paths, call]

theorem Binding.owns_openOnChannel : r.Owns r.openOnChannel.paths := by
  simp +decide [openOnChannel, Code.Stmt.paths, Code.Expr.paths, Code.Expr.dotted?, selfName,
    Code.Arguments.paths, Code.Arguments.paths_ofKeywords]

theorem Binding.owns_handlerEntry (implementation : Binding → String) :
    r.Owns (r.handlerEntry implementation).2.paths := by
  have target : HasSmall "self" := by decide
  have adapter : HasSmall adapterName := by decide
  simp [handlerEntry, adapter, Code.Expr.paths, Code.Expr.dotted?, selfName, target]

theorem Binding.owns_classPaths : r.Owns r.classPaths := by
  rw [classPaths, owns_append, owns_append, blockPaths, owns_append]
  exact ⟨⟨⟨r.owns_openOnChannel, r.owns_clientBody⟩, r.owns_handlerEntry _⟩, r.owns_handlerEntry _⟩

end Uses

section Class

variable {className name : String}

theorem nameInClass_of_hasSmall (small : HasSmall name) : HasSmall (nameInClass className name) := by
  rw [nameInClass]
  split
  · exact small.append_left _
  · exact small

theorem mem_owner {c : Char} (member : c ∈ className.toList) (other : (c == '_') = false) :
    c ∈ className.toList.dropWhile (· == '_') := by
  rw [← List.takeWhile_append_dropWhile (p := (· == '_')) (l := className.toList)] at member
  rcases List.mem_append.mp member with before | after
  · have skipped := List.mem_takeWhile_imp before
    rw [other] at skipped
    cases skipped
  · exact after

theorem nameInClass_eq_or (named : HasSmall className) :
    nameInClass className name = name ∨ HasSmall (nameInClass className name) := by
  obtain ⟨c, member, small⟩ := named
  have notUnderscore : (c == '_') = false := by
    apply Bool.eq_false_iff.mpr
    intro same
    rw [beq_iff_eq.mp same] at small
    cases small
  have inOwner := mem_owner member notUnderscore
  rw [nameInClass]
  split
  · right
    exact ⟨c, by simp [inOwner], small⟩
  · left
    rfl

end Class

/-- The code of a method in a class of its service takes no constant but its own, and finds that one
    unless the class hides it. -/
structure Binding.UsesOwn (module : Module) (r : Binding) (className : String) : Prop where
  only : ∀ p ∈ r.classPaths, ∀ name, p.head? = some name →
    ∀ other, module.rpcNamed (nameInClass className name) = some other → other = r
  found : Shown r.constant →
    module.rpcNamed (nameInClass className r.constant) = some r

section Distinct

variable {unit : FileUnit} {module : Module} (built : ModuleBuilt unit module) (words : IsWords unit)

theorem Module.rpcNamed_constant (distinct : (module.definitions.map (·.name)).Nodup) {r : Binding}
    (isBinding : r ∈ module.bindings) : module.rpcNamed r.constant = some r := by
  obtain ⟨b, isBound, ofBound⟩ := List.mem_flatMap.mp isBinding
  have isDefinition : ⟨r.constant, some r⟩ ∈ module.definitions := by
    have inConstants : ⟨r.constant, some r⟩ ∈ b.constants :=
      List.mem_cons_of_mem _ (List.mem_map.mpr ⟨r, ofBound, rfl⟩)
    have ofServices := List.mem_flatMap.mpr ⟨b, isBound, inConstants⟩
    exact List.mem_append_left _ (List.mem_append_left _ ofServices)
  have reversed : (module.definitions.reverse.map (·.name)).Nodup := by
    rwa [List.map_reverse, List.nodup_reverse]
  have found := List.find?_of_nodup reversed (List.mem_reverse.mpr isDefinition)
  rw [rpcNamed, found]
  rfl

include built words in
theorem ModuleBuilt.usesOwn (distinct : (module.definitions.map (·.name)).Nodup) {r : Binding}
    (isBinding : r ∈ module.bindings) {className : String} (named : HasSmall className) :
    r.UsesOwn module className := by
  have constant {name : String} {other : Binding}
      (found : module.rpcNamed name = some other) : ¬ HasSmall name := by
    obtain ⟨isOther, rfl⟩ := Module.rpcNamed_eq_some found
    exact built.not_hasSmall_constant words isOther
  constructor
  · intro p isPath name isHead other found
    have large := constant found
    rcases r.owns_classPaths p isPath name isHead with rfl | small
    · rcases nameInClass_eq_or named with same | small
      · rw [same, Module.rpcNamed_constant distinct isBinding] at found
        exact (Option.some_inj.mp found).symm
      · exact absurd small large
    · exact absurd (nameInClass_of_hasSmall small) large
  · intro shown
    rw [Code.nameInClass_of_shown shown, Module.rpcNamed_constant distinct isBinding]

end Distinct

/-- The names of a service module are distinct exactly if the keys of its services and methods are, and
    then each method is served and called through the constant of that same method. -/
theorem rpcs_distinct_iff {mapper : Mapper} {unit : FileUnit} {module : Module}
    (result : Module.ofUnit mapper unit = .ok module) (words : IsWords unit) :
    ((module.definitions.map (·.name)).Nodup ↔ NamesApart unit) ∧
    (NamesApart unit → ∀ r ∈ module.bindings, module.rpcNamed r.constant = some r ∧
      ∀ className ∈ classNames r.service, r.UsesOwn module className) := by
  have built := Module.ofUnit_eq_ok result
  have distinct := built.nodup_iff words
  refine ⟨distinct, fun apart r isBinding => ?_⟩
  have names := distinct.mpr apart
  refine ⟨Module.rpcNamed_constant names isBinding, fun className isClass => ?_⟩
  exact built.usesOwn words names isBinding (classNames_hasSmall isClass)

section Examples

def emptyRef : Schema.TypeRef where
  fullName := "google.protobuf.Empty"
  file := "google/protobuf/empty.proto"
  package := "google.protobuf"
  path := ["Empty"]

def emptyMethod (service name : String) : Method where
  name := name
  fullName := service ++ "." ++ name
  input := emptyRef
  output := emptyRef
  clientStreaming := false
  serverStreaming := false
  deprecated := false

def serviceOf (name : String) (methods : List String) : Schema.Service where
  name := name
  fullName := name
  methods := methods.map (emptyMethod name)

def servicesFile (services : List Schema.Service) : FileUnit where
  name := "shop.proto"
  package := ""
  dependencies := ["google/protobuf/empty.proto"]
  messages := []
  enums := []
  services := services

def shopMapper : Mapper where
  scope := { file := "shop.proto", package := "", declaresTypes := false }
  enums := []

def shop : FileUnit := servicesFile [serviceOf "Order" ["ItemList", "PayHTTP"], serviceOf "Stock" ["List"]]

theorem shop_rpcs_distinct : ∃ module, Module.ofUnit shopMapper shop = .ok module ∧ IsWords shop ∧
    (module.definitions.map (·.name)).Nodup ∧
    ∀ r ∈ module.bindings, ∀ className ∈ classNames r.service, r.UsesOwn module className := by
  obtain ⟨module, result⟩ := Result.exists_of_isSome (x := Module.ofUnit shopMapper shop) rfl
  have words : IsWords shop := ⟨by decide, by decide⟩
  have keys : constantKeys shop =
      ["order_name", "stock_name", "_order_item_list", "_order_pay_http", "_stock_list"] := by
    decide +kernel
  have apart : NamesApart shop := by
    rw [← nodup_constantKeys, keys]
    decide
  obtain ⟨distinct, own⟩ := rpcs_distinct_iff result words
  exact ⟨module, result, words, distinct.mpr apart, fun r isBinding => (own apart r isBinding).2⟩

/-- Where one name ends and the other starts is lost: both methods have the key `order_item_list`. -/
def orders : FileUnit := servicesFile [serviceOf "Order" ["ItemList"], serviceOf "OrderItem" ["List"]]

theorem orders_clash : (orders.services.map (·.name)).Nodup ∧
    (∀ s ∈ orders.services, (s.methods.map (·.name)).Nodup) ∧ IsWords orders ∧
    ∃ module, Module.ofUnit shopMapper orders = .ok module ∧
      ¬ (module.definitions.map (·.name)).Nodup := by
  have words : IsWords orders := ⟨by decide, by decide⟩
  have keys : methodKeys orders = ["order_item_list", "order_item_list"] := by decide +kernel
  obtain ⟨module, result⟩ := Result.exists_of_isSome (x := Module.ofUnit shopMapper orders) rfl
  refine ⟨by decide, by decide, words, module, result, fun distinct => ?_⟩
  have apart := ((Module.ofUnit_eq_ok result).nodup_iff words).mp distinct
  have methods : (methodKeys orders).Nodup := apart.methods
  rw [keys] at methods
  exact absurd methods (by decide)

end Examples

end ProtoBindings.Service
