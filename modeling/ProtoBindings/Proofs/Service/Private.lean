import ProtoBindings.Proofs.Service.Module

namespace ProtoBindings.Service

open Code (Shown nameInClass)
open Name (Apart HasSmall IsSnake StartsPlain)
open Schema (FileUnit Method)
open Value (Context)

section Owner

variable {s : Schema.Service} {m : Method}

theorem default_ending (s : Schema.Service) (m : Method) :
    ¬ ['_', '_'] <:+ (unimplementedName s m).toList := by
  rintro ⟨before, same⟩
  have apart : Apart "__" "_unimplemented" := by decide
  apply apart.append_ne (String.ofList before) ("_" ++ methodKey s m)
  rw [← unimplementedName_eq, ← String.toList_inj, String.toList_append, String.toList_ofList, ← same]
  rfl

theorem private_default (hidden : ¬ Shown (unimplementedName s m)) : ∃ owner : List Char, 'P' ∈ owner ∧
    nameInClass (s.name ++ "Partial") (unimplementedName s m) =
      "_" ++ (String.ofList owner ++ "_" ++ methodKey s m) ++ "_unimplemented" := by
  have inClass : 'P' ∈ (s.name ++ "Partial").toList := by
    rw [String.toList_append]
    exact List.mem_append_right _ (by decide)
  have inOwner := mem_owner inClass (by decide)
  refine ⟨_, inOwner, ?_⟩
  rw [nameInClass, if_pos ⟨not_not.mp hidden, default_ending s m, List.ne_nil_of_mem inOwner⟩,
    unimplementedName_eq]
  simp only [String.append_assoc]

end Owner

section Known

def knownEndings : List String :=
  Value.builtins ++ builtins ++ Value.importEndings ++ ["grpc", "warnings", "_rpc", "_metadata"] ++
    typingNames

theorem Library.known {i : Import} {id : String} (isLibrary : Library i id) : id ∈ knownEndings := by
  cases isLibrary with
  | module _ known =>
    have listed : ["grpc", "warnings"] ⊆ knownEndings := by decide
    exact listed known
  | typing _ known => exact List.mem_append_right _ known
  | rpc => decide
  | metadata => decide

/-- A single name is a definition of the module itself, or ends like one that is known. -/
theorem Resolves.own_or_known {c : Context} {id : String} (resolves : Resolves c [id]) :
    id ∈ c.defined ∨ ∃ ending ∈ knownEndings, ∃ start, id = start ++ ending := by
  have whole (known : id ∈ knownEndings) : ∃ ending ∈ knownEndings, ∃ start, id = start ++ ending :=
    ⟨id, known, "", String.empty_append.symm⟩
  have ofLanguage : Value.builtins ++ builtins ⊆ knownEndings := by decide
  cases resolves with
  | value resolves =>
    cases resolves with
    | builtin id isBuiltin => exact .inr (whole (ofLanguage (List.mem_append_left _ isBuiltin)))
    | library line i id rest _ _ _ isLibrary =>
      obtain ⟨ending, isEnding, start, same⟩ := isLibrary.ending
      have ofImports : Value.importEndings ⊆ knownEndings := by decide
      exact .inr ⟨ending, ofImports isEnding, start, same⟩
    | own id defined => exact .inl defined
  | builtin id isBuiltin => exact .inr (whole (ofLanguage (List.mem_append_right _ isBuiltin)))
  | library line i id rest _ _ _ isLibrary => exact .inr (whole isLibrary.known)

theorem known_apart : ∀ ending ∈ knownEndings, Apart ending "_unimplemented" := by decide

end Known

theorem Module.items_defines (m : Module) :
    m.items.flatMap (·.defines) = m.definitions.map (·.name) := by
  have constants (b : Bound) : b.constantItems.flatMap (·.defines) = b.constants.map (·.name) := by
    simp [Bound.constantItems, Bound.constants, Bound.serviceItem, Binding.constantItem,
      List.flatMap_map, ← List.map_eq_flatMap]
  have code (b : Bound) : b.codeItems.flatMap (·.defines) = b.code.map (·.name) := by
    simp [Bound.codeItems, Bound.code, Value.functionItem, ServiceClass.item, List.flatMap_map,
      ← List.map_eq_flatMap, Function.comp_def]
  simp [Module.items, Module.definitions, List.flatMap_assoc, List.map_flatMap, constants, code,
    adapterItem]

section Built

variable {unit : FileUnit} {module : Module} (built : ModuleBuilt unit module) (words : IsWords unit)
include words

theorem isSnake_methodKeys : ∀ key ∈ methodKeys unit, IsSnake key := by
  intro key isKey
  have isConstant : "_" ++ key ∈ constantKeys unit :=
    List.mem_append_right _ (List.mem_map_of_mem isKey)
  exact (Name.isSnake_append.mp (isSnake_constantKeys words _ isConstant)).2

include built

theorem ModuleBuilt.default_of_defined {start : String}
    (defined : start ++ "_unimplemented" ∈ module.definitions.map (·.name)) :
    ∃ key ∈ methodKeys unit, start = "_" ++ key := by
  rw [built.names_perm.mem_iff, built.constants, built.functions, ← constantKeys, List.mem_append,
    List.mem_append, List.mem_cons] at defined
  rcases defined with isConstant | (isAdapter | isDefault) | isClass
  · obtain ⟨key, isKey, same⟩ := List.mem_map.mp isConstant
    have ending : HasSmall "_unimplemented" := by decide
    have large := Name.not_hasSmall_upper (isSnake_constantKeys words key isKey)
    rw [same] at large
    exact absurd (ending.append_left start) large
  · have apart : Apart "_unimplemented" adapterName := by decide
    exact absurd (isAdapter.trans String.empty_append.symm) (apart.append_ne start "")
  · obtain ⟨key, isKey, same⟩ := List.mem_map.mp isDefault
    exact ⟨key, isKey, by simpa using same.symm⟩
  · obtain ⟨s, _, ofService⟩ := List.mem_flatMap.mp isClass
    obtain ⟨suffix, isSuffix, same⟩ := List.mem_map.mp ofService
    have apart : ∀ suffix ∈ classSuffixes, Apart "_unimplemented" suffix := by decide
    exact absurd same.symm ((apart suffix isSuffix).append_ne start s.name)

variable {c : Context} (fresh : c.defined = [])
include fresh

theorem ModuleBuilt.not_resolves_private {s : Schema.Service} {m : Method}
    (hidden : ¬ Shown (unimplementedName s m)) :
    ¬ Resolves (c.extend module.items) [nameInClass (s.name ++ "Partial") (unimplementedName s m)] := by
  obtain ⟨owner, capital, same⟩ := private_default hidden
  rw [same]
  intro resolves
  rcases resolves.own_or_known with defined | ⟨ending, isKnown, start, known⟩
  · rw [Context.extend, fresh, List.nil_append, Module.items_defines] at defined
    obtain ⟨key, isKey, isDefault⟩ := built.default_of_defined words defined
    have whole : String.ofList owner ++ "_" ++ methodKey s m = key := by simpa using isDefault
    -- the class is part of the name, and its capital letter is in no key
    have inKey : 'P' ∈ key.toList := by
      rw [← whole, String.append_assoc, String.toList_append, String.toList_ofList]
      exact List.mem_append_left _ capital
    exact absurd (isSnake_methodKeys words key isKey 'P' inKey) (by decide)
  · exact (known_apart ending isKnown).append_ne start _ known.symm

theorem ModuleBuilt.plain_of_selfContained (selfContained : module.SelfContained c) {s : Schema.Service}
    (isService : s ∈ unit.services) (methods : s.methods ≠ []) : StartsPlain s.name.toList := by
  rw [← built.services] at isService
  obtain ⟨b, isBound, rfl⟩ := List.mem_map.mp isService
  obtain ⟨m, isMethod⟩ := List.exists_mem_of_ne_nil _ methods
  rw [← built.methods b isBound] at isMethod
  obtain ⟨r, isBinding, rfl⟩ := List.mem_map.mp isMethod
  rw [← unimplementedName_shown (m := r.method)]
  by_contra hidden
  have isItem : (partialClass b.service b.bindings).item ∈ module.items :=
    Module.codeItem_mem isBound (List.mem_append_right _ (List.mem_map_of_mem (by simp [Bound.classes])))
  refine built.not_resolves_private words fresh hidden
    (selfContained.runs.resolves grows_resolves _ isItem _ ?_)
  rw [partialClass_evaluated, ← built.owner b isBound r isBinding]
  exact List.mem_map_of_mem isBinding

end Built

end ProtoBindings.Service
