import ProtoBindings.Proofs.Descriptor.Traversal
import ProtoBindings.Proofs.Resolver.Placement

namespace ProtoBindings

open Schema (EnumType FileUnit Message)

namespace Schema.FileUnit

def messagePaths (unit : FileUnit) : List (List String) := unit.allMessages.map (·.ref.path)

def enumPaths (unit : FileUnit) : List (List String) := unit.allEnums.map (·.ref.path)

end Schema.FileUnit

namespace Resolver

/-- A message with the declaration that it is made of. Its oneofs are those that fields stand in, the
    ones of optional fields aside. -/
structure MadeOf (file : Descriptor.File) (declared : Descriptor.Message) (m : Message) : Prop where
  name : m.name = declared.name
  ref : m.ref = refAt file m.ref.path
  fullName : m.fullName = m.ref.fullName
  oneofs : ∃ indices : List Int, indices.Pairwise (· < ·) ∧
    (∀ index, index ∈ indices ↔ (∃ f ∈ declared.fields, f.oneofIndex = some index) ∧
      ∀ f ∈ declared.fields, f.isProto3Optional = true → f.oneofIndex ≠ some index) ∧
    List.Forall₂ (fun index o => declaredOneof declared.oneofs index = .ok o.name) indices m.oneofs

structure EnumMadeOf (file : Descriptor.File) (declared : Descriptor.Enum) (e : EnumType) : Prop where
  name : e.name = declared.name
  ref : e.ref = refAt file e.ref.path
  fullName : e.fullName = e.ref.fullName
  values : e.values = declared.values.map fun value => ⟨value.name, value.number⟩

/-- A unit that lists what its file declares, each type once. Of two paths in a list, the first comes
    before the second if both in this order are a part of it. -/
structure Listed (file : Descriptor.File) (unit : FileUnit) : Prop where
  messages : ∀ path, path ∈ unit.messagePaths ↔ ∃ declared, file.Shows path declared
  messagesOnce : unit.messagePaths.Nodup
  message : ∀ m ∈ unit.allMessages, ∃ declared, file.Shows m.ref.path declared ∧ MadeOf file declared m
  nestedFirst : ∀ outer ∈ unit.messagePaths, ∀ inner ∈ unit.messagePaths,
    outer <+: inner → outer ≠ inner → [inner, outer].Sublist unit.messagePaths
  declarationOrder : ∀ scope messages first second, file.Scope scope messages →
    [first, second].Sublist messages → ∀ p ∈ unit.messagePaths, ∀ q ∈ unit.messagePaths,
      scope ++ [first.name] <+: p → scope ++ [second.name] <+: q → [p, q].Sublist unit.messagePaths
  enums : ∀ path, path ∈ unit.enumPaths ↔ ∃ declared, file.ShowsEnum path declared
  enumsOnce : unit.enumPaths.Nodup
  enum : ∀ e ∈ unit.allEnums, ∃ declared, file.ShowsEnum e.ref.path declared ∧ EnumMadeOf file declared e
  topEnumsFirst : ∃ nested, unit.enumPaths = file.enums.map (fun e => [e.name]) ++ nested.flatten ∧
    List.Forall₂ (fun path inner => ∃ declared, file.Shows path declared ∧
      inner = declared.enums.map fun e => path ++ [e.name]) unit.messagePaths nested

section Message

variable {room : Room} {table : SymbolTable} {file : Descriptor.File} {scope : List String}
  {message : Descriptor.Message} {placed : List PlacedField} {built : Message}

theorem realOneof_eq_some {field : Descriptor.Field} {index : Int} :
    realOneof? message field = some index ↔ field.oneofIndex = some index ∧
      ∀ f ∈ message.fields, f.isProto3Optional = true → f.oneofIndex ≠ some index := by
  rw [realOneof?, Option.filter_eq_some_iff]
  refine and_congr_right fun _ => ?_
  simp [syntheticOneofs]

theorem MessageBuilt.madeOf (result : MessageBuilt room table file scope message placed built)
    (named : built.name = message.name) (isRef : built.ref = refAt file (scope ++ [message.name])) :
    MadeOf file message built where
  name := named
  ref := by rw [isRef]; rfl
  fullName := by rw [result.fullName, isRef]
  oneofs := by
    refine ⟨usedOneofs placed, ?_, fun index => ?_, ?_⟩
    · have ordered := (usedOneofs_ordered placed).and (nodup_usedOneofs placed)
      exact ordered.imp fun order => lt_of_le_of_ne order.1 order.2
    · simp only [result.mem_usedOneofs_iff_real, realOneof_eq_some, ← and_assoc, exists_and_right]
    · exact result.oneofs.imp fun _ _ oneofBuilt => (buildOneof_eq_ok oneofBuilt).1

end Message

section Found

variable {file : Descriptor.File}
  (distinct : ((fileSymbols file).map (·.ref.fullName)).Nodup)
include distinct

theorem find_own (symbols : SymbolTable) {s : Symbol} (declared : s ∈ fileSymbols file) :
    (symbols.extend (fileSymbols file)).find? s.ref.fullName = some s := by
  have distinct' : ((fileSymbols file).reverse.map (·.ref.fullName)).Nodup := by
    rw [List.map_reverse, List.nodup_reverse]
    exact distinct
  rw [SymbolTable.find?, SymbolTable.extend, List.find?_append,
    List.find?_of_nodup distinct' (List.mem_reverse.mpr declared), Option.some_or]

theorem declaredRef_own (symbols : SymbolTable) {path : List String} {d : Declaration}
    (declared : ⟨refAt file path, d⟩ ∈ fileSymbols file) :
    declaredRef (symbols.extend (fileSymbols file)) file path = .ok (refAt file path) :=
  declaredRef_of_found (find_own distinct symbols declared) rfl

theorem message_madeOf {room : Room} {symbols : SymbolTable} {n : Descriptor.Node} (isNode : n ∈ file.nodes) {m : Message}
    (built : buildMessage room (symbols.extend (fileSymbols file)) file n.scope n.message = .ok m) :
    m.ref.path = n.path ∧ MadeOf file n.message m := by
  obtain ⟨_, whole⟩ := buildMessage_eq_ok built
  have declared : n.symbol file ∈ fileSymbols file :=
    Descriptor.File.mem_symbols.mpr (.inl ⟨n, isNode, .inl rfl⟩)
  have isRef := Except.ok.inj (whole.ref.symm.trans (declaredRef_own distinct symbols declared))
  exact ⟨congrArg (·.path) isRef, whole.madeOf (buildMessage_name built) isRef⟩

theorem enum_madeOf {symbols : SymbolTable} {scope : List String} {declared : Descriptor.Enum}
    (visible : (scope, declared) ∈ file.visibleEnums) {e : EnumType}
    (built : buildEnum (symbols.extend (fileSymbols file)) file scope declared = .ok e) :
    e.ref.path = scope ++ [declared.name] ∧ EnumMadeOf file declared e := by
  obtain ⟨ref, found, rfl⟩ := buildEnum_eq_ok.mp built
  have isRef := declaredRef_own distinct symbols (Descriptor.File.symbol_of_enum visible)
  obtain rfl : ref = refAt file (scope ++ [declared.name]) := Except.ok.inj (found.symm.trans isRef)
  exact ⟨rfl, rfl, rfl, rfl, rfl⟩

end Found

theorem showsEnum_iff {file : Descriptor.File} {path : List String} {e : Descriptor.Enum} :
    file.ShowsEnum path e ↔ ∃ scope, (scope, e) ∈ file.visibleEnums ∧ scope ++ [e.name] = path := by
  simp only [Descriptor.File.visibleEnums, List.mem_append, List.mem_map, List.mem_flatMap, List.mem_filter,
    Prod.mk.injEq]
  constructor
  · intro shows
    cases shows with
    | top isEnum => exact ⟨[], .inl ⟨e, isEnum, rfl, rfl⟩, rfl⟩
    | nested outer isEnum =>
      obtain ⟨n, isNode, shown, rfl, rfl⟩ := Descriptor.File.shows_iff.mp outer
      exact ⟨n.path, .inr ⟨n, ⟨isNode, by simp [shown]⟩, e, isEnum, rfl, rfl⟩, rfl⟩
  · rintro ⟨scope, ⟨e, isEnum, rfl, rfl⟩ | ⟨n, ⟨isNode, shown⟩, e, isEnum, rfl, rfl⟩, rfl⟩
    · exact .top isEnum
    · exact .nested (Descriptor.File.shows_iff.mpr ⟨n, isNode, by simpa using shown, rfl, rfl⟩) isEnum

section Unit

variable {room : Room} {file : Descriptor.File} {symbols : SymbolTable} {unit : FileUnit}
  (distinct : ((fileSymbols file).map (·.ref.fullName)).Nodup)
  (built : UnitBuilt room (symbols.extend (fileSymbols file)) file unit)
include distinct built

theorem UnitBuilt.messagePaths_eq :
    unit.messagePaths = (file.nodes.filter (!·.isHidden)).map (·.path) := by
  have paths : List.Forall₂ (fun n m => n.path = m.ref.path) (file.nodes.filter (!·.isHidden))
      unit.allMessages :=
    built.messages.imp_of_mem fun n member m _ built =>
      (message_madeOf distinct (List.mem_filter.mp member).1 built).1.symm
  exact (paths.map_eq fun _ _ same => same).symm

theorem UnitBuilt.enumPaths_eq :
    unit.enumPaths = file.enums.map (fun e => [e.name]) ++
      ((file.nodes.filter (!·.isHidden)).map (·.enumPaths)).flatten := by
  have paths : unit.enumPaths = file.visibleEnums.map fun d => d.1 ++ [d.2.name] := by
    have each := built.allEnums.imp_of_mem (S := fun d e => d.1 ++ [d.2.name] = e.ref.path)
      fun d visible e _ made => (enum_madeOf distinct visible made).1.symm
    exact (each.map_eq fun _ _ same => same).symm
  rw [paths, Descriptor.File.visibleEnums, List.map_append, List.map_map, List.map_flatMap, List.flatMap_def]
  simp [Descriptor.Node.enumPaths, Function.comp_def]

theorem UnitBuilt.messagePath_iff {path : List String} :
    path ∈ unit.messagePaths ↔ ∃ n ∈ file.nodes, n.isHidden = false ∧ n.path = path := by
  simp [built.messagePaths_eq distinct, and_assoc]

theorem UnitBuilt.pair_sublist {n n' : Descriptor.Node} (shown : n.isHidden = false)
    (shown' : n'.isHidden = false) (order : [n, n'].Sublist file.nodes) :
    [n.path, n'.path].Sublist unit.messagePaths := by
  have kept := (order.filter (!·.isHidden)).map (·.path)
  rw [built.messagePaths_eq distinct]
  simpa [shown, shown'] using kept

theorem UnitBuilt.listed : Listed file unit where
  messages path := by
    rw [built.messagePath_iff distinct]
    constructor
    · rintro ⟨n, isNode, shown, rfl⟩
      exact ⟨n.message, Descriptor.File.shows_iff.mpr ⟨n, isNode, shown, rfl, rfl⟩⟩
    · rintro ⟨declared, shows⟩
      obtain ⟨n, isNode, shown, atPath, _⟩ := Descriptor.File.shows_iff.mp shows
      exact ⟨n, isNode, shown, atPath⟩
  messagesOnce := by
    rw [built.messagePaths_eq distinct]
    exact (Descriptor.File.nodePaths_nodup distinct).sublist (List.filter_sublist.map _)
  message m member := by
    obtain ⟨n, isNode, result⟩ := built.messages.exists_left member
    obtain ⟨isNode, shown⟩ := List.mem_filter.mp isNode
    obtain ⟨atPath, madeOf⟩ := message_madeOf distinct isNode result
    exact ⟨n.message, Descriptor.File.shows_iff.mpr ⟨n, isNode, by simpa using shown, atPath.symm, rfl⟩, madeOf⟩
  nestedFirst outer isOuter inner isInner above other := by
    obtain ⟨n, isNode, shown, rfl⟩ := (built.messagePath_iff distinct).mp isOuter
    obtain ⟨n', isNode', shown', rfl⟩ := (built.messagePath_iff distinct).mp isInner
    have before := Descriptor.File.nested_before (Descriptor.File.nodePaths_nodup distinct) isNode isNode'
      above other
    exact built.pair_sublist distinct shown' shown before
  declarationOrder scope messages first second here order p isFirst q isSecond below below' := by
    obtain ⟨n, isNode, shown, rfl⟩ := (built.messagePath_iff distinct).mp isFirst
    obtain ⟨n', isNode', shown', rfl⟩ := (built.messagePath_iff distinct).mp isSecond
    have before := Descriptor.File.sibling_before (Descriptor.File.nodePaths_nodup distinct) isNode isNode'
      here order below below'
    exact built.pair_sublist distinct shown shown' before
  enums path := by
    simp only [FileUnit.enumPaths, List.mem_map, showsEnum_iff]
    constructor
    · rintro ⟨e, isEnum, rfl⟩
      obtain ⟨⟨scope, d⟩, visible, made⟩ := built.allEnums.exists_left isEnum
      exact ⟨d, scope, visible, (enum_madeOf distinct visible made).1.symm⟩
    · rintro ⟨d, scope, visible, rfl⟩
      obtain ⟨e, isEnum, made⟩ := built.allEnums.exists_right visible
      exact ⟨e, isEnum, (enum_madeOf distinct visible made).1⟩
  enumsOnce := by
    rw [built.enumPaths_eq distinct, ← List.flatMap_def]
    exact (Descriptor.File.enumPaths_nodup distinct).sublist
      ((List.Sublist.refl _).append (List.filter_sublist.flatMap _))
  enum e member := by
    obtain ⟨⟨scope, d⟩, visible, made⟩ := built.allEnums.exists_left member
    obtain ⟨atPath, madeOf⟩ := enum_madeOf distinct visible made
    exact ⟨d, showsEnum_iff.mpr ⟨scope, visible, atPath.symm⟩, madeOf⟩
  topEnumsFirst := by
    refine ⟨_, built.enumPaths_eq distinct, ?_⟩
    rw [built.messagePaths_eq distinct, List.forall₂_map_left_iff, List.forall₂_map_right_iff,
      List.forall₂_same]
    intro n member
    obtain ⟨isNode, shown⟩ := List.mem_filter.mp member
    exact ⟨n.message, Descriptor.File.shows_iff.mpr ⟨n, isNode, by simpa using shown, rfl, rfl⟩, rfl⟩

end Unit

theorem listed_of_added {resolver next : Resolver} {file : Descriptor.File} {unit : FileUnit}
    (distinct : ((fileSymbols file).map (·.ref.fullName)).Nodup)
    (added : resolver.add file = (next, .ok unit)) : Listed file unit :=
  (buildFile_eq_ok (add_eq_ok added).1).listed distinct

end Resolver

end ProtoBindings
