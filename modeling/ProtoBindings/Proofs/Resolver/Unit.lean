import ProtoBindings.Proofs.Descriptor.Declaration
import ProtoBindings.Proofs.Resolver.Build
import ProtoBindings.Proofs.Schema.Fields

namespace ProtoBindings

open Schema (ElementType EnumType Field FileUnit Message TypeRef)

namespace Descriptor

def File.visibleEnums (file : File) : List (List String × Enum) :=
  file.enums.map (([], ·)) ++
    (file.nodes.filter (!·.isHidden)).flatMap fun n => n.message.enums.map ((n.path, ·))

theorem File.symbol_of_enum {file : File} {scope : List String} {d : Enum}
    (visible : (scope, d) ∈ file.visibleEnums) :
    ⟨Resolver.refAt file (scope ++ [d.name]), .enum⟩ ∈ Resolver.fileSymbols file := by
  rw [File.mem_symbols]
  simp only [visibleEnums, List.mem_append, List.mem_map, List.mem_flatMap, List.mem_filter] at visible
  rcases visible with ⟨e, isEnum, same⟩ | ⟨n, ⟨isNode, _⟩, e, isEnum, same⟩
  · cases same
    exact .inr ⟨_, isEnum, rfl⟩
  · cases same
    exact .inl ⟨n, isNode, .inr ⟨_, isEnum, rfl⟩⟩

end Descriptor

namespace Resolver

inductive Known (table : SymbolTable) : ElementType → Prop
  | scalar (type) : Known table (.scalar type)
  | named (name : String) (s : Symbol) : table.find? name = some s → Known table s.element

theorem Symbol.entry_eq_some {s : Symbol} {label : Descriptor.Label} {entry : Descriptor.Message} :
    s.entry? label = some entry ↔
      s.declaration = .message entry ∧ label = .repeated ∧ entry.isMapEntry = true := by
  obtain ⟨ref, m | _⟩ := s
  · simp only [Symbol.entry?, Option.ite_none_right_eq_some, Option.some.injEq,
      Declaration.message.injEq]
    constructor
    · rintro ⟨⟨repeated, isEntry⟩, rfl⟩
      exact ⟨rfl, repeated, isEntry⟩
    · rintro ⟨rfl, repeated, isEntry⟩
      exact ⟨⟨repeated, isEntry⟩, rfl⟩
  · simp [Symbol.entry?]

theorem Symbol.element_of_entry {s : Symbol} {label : Descriptor.Label} {entry : Descriptor.Message}
    (isEntry : s.entry? label = some entry) : s.element = .message s.ref := by
  rw [Symbol.element, (Symbol.entry_eq_some.mp isEntry).1]

theorem Symbol.repeated_of_entry {s : Symbol} {label : Descriptor.Label} {entry : Descriptor.Message}
    (isEntry : s.entry? label = some entry) : label = .repeated := (Symbol.entry_eq_some.mp isEntry).2.1

theorem FieldBuilt.known_element {table : SymbolTable} {field : Descriptor.Field}
    {oneof : Option String} {depth : Nat} {f : Field}
    (result : FieldBuilt table field oneof depth f) : Known table f.element := by
  cases result with
  | scalar type => exact .scalar type
  | named s _ found _ => exact .named _ s found
  | map s _ _ _ _ _ _ _ found isEntry =>
    rw [Field.element, Field.info, ← s.element_of_entry isEntry]
    exact .named _ s found

theorem FieldBuilt.known {table : SymbolTable} {field : Descriptor.Field} {oneof : Option String}
    {depth : Nat} {f : Field} (result : FieldBuilt table field oneof depth f) :
    ∀ e ∈ f.elements, Known table e := by
  intro e member
  cases result with
  | scalar type =>
    rw [List.mem_singleton.mp member]
    exact .scalar type
  | named s _ found _ =>
    rw [List.mem_singleton.mp member]
    exact .named _ s found
  | map s _ _ _ _ _ _ _ _ _ _ _ keyBuilt valueBuilt =>
    rcases List.mem_cons.mp member with rfl | member
    · exact (buildFieldTo_eq_ok keyBuilt).known_element
    · rw [List.mem_singleton.mp member]
      exact (buildFieldTo_eq_ok valueBuilt).known_element

theorem FieldBuilt.refs {table : SymbolTable} {depth : Nat} {field : Descriptor.Field}
    {oneof : Option String} {f : Field} (built : FieldBuilt table field oneof depth f) :
    ∀ ref ∈ f.refs, ∃ s ∈ table.newestFirst, s.ref = ref := by
  induction depth generalizing field oneof f with
  | zero => cases built
  | succ depth ih =>
    intro ref member
    cases built with
    | scalar type => cases member
    | named s _ found _ =>
      have isRef : s.ref = ref := by
        obtain ⟨at', _ | _⟩ := s <;> simpa [ordinaryField, Field.refs, Symbol.element,
          Schema.ElementType.ref?, eq_comm] using member
      exact ⟨s, (SymbolTable.mem_of_find found).1, isRef⟩
    | map s entry keyField valueField context key value _ found _ _ _ keyBuilt valueBuilt =>
      rw [Field.refs, List.mem_append, List.mem_append] at member
      rcases member with (member | member) | member
      · have isRef : s.ref = ref := by simpa [Schema.ElementType.ref?, eq_comm] using member
        exact ⟨s, (SymbolTable.mem_of_find found).1, isRef⟩
      · exact ih (buildFieldTo_eq_ok keyBuilt) ref member
      · exact ih (buildFieldTo_eq_ok valueBuilt) ref member

theorem MessageBuilt.field {room : Room} {table : SymbolTable} {file : Descriptor.File} {scope : List String}
    {message : Descriptor.Message} {placed : List PlacedField} {m : Message}
    (result : MessageBuilt room table file scope message placed m) {f : Field} (member : f ∈ m.allFields) :
    ∃ field ∈ message.fields, ∃ oneof, FieldBuilt table field oneof (room.levels scope.length) f := by
  rcases Message.mem_allFields.mp member with member | ⟨o, isOneof, member⟩
  · obtain ⟨field, isField, _, built⟩ := result.plain member
    exact ⟨field, isField, none, built⟩
  · obtain ⟨field, isField, _, built⟩ := result.oneofField isOneof member
    exact ⟨field, isField, some o.name, built⟩

structure UnitBuilt (room : Room) (table : SymbolTable) (file : Descriptor.File) (unit : FileUnit) : Prop where
  name : unit.name = file.name
  package : unit.package = file.package
  messages : List.Forall₂ (fun n m => buildMessage room table file n.scope n.message = .ok m)
    (file.nodes.filter (!·.isHidden)) unit.allMessages
  enums : List.Forall₂ (fun d e => buildEnum table file [] d = .ok e) file.enums unit.enums
  services : List.Forall₂ (fun s built => buildService table file.package s = .ok built)
    file.services unit.services

theorem buildFile_eq_ok {room : Room} {table : SymbolTable} {file : Descriptor.File} {unit : FileUnit}
    (result : buildFile room table file = .ok unit) : UnitBuilt room table file unit := by
  simp only [buildFile, Result.bind_eq_ok, Result.pure_eq_ok, Result.mapM_eq_ok] at result
  obtain ⟨messages, built, enums, enumsBuilt, services, walk, rfl⟩ := result
  exact ⟨rfl, rfl, buildMessages_innerFirst room table file [] file.messages messages built,
    enumsBuilt, walk⟩

section UnitBuilt

variable {room : Room} {table : SymbolTable} {file : Descriptor.File} {unit : FileUnit}
  (result : UnitBuilt room table file unit)
include result

theorem UnitBuilt.message {m : Message} (member : m ∈ unit.allMessages) :
    ∃ n ∈ file.nodes, n.isHidden = false ∧
      ∃ placed, MessageBuilt room table file n.scope n.message placed m := by
  obtain ⟨n, isNode, built⟩ := result.messages.exists_left member
  obtain ⟨isNode, shown⟩ := List.mem_filter.mp isNode
  exact ⟨n, isNode, by simpa using shown, buildMessage_eq_ok built⟩

theorem UnitBuilt.known {m : Message} (member : m ∈ unit.allMessages) {f : Field}
    (isField : f ∈ m.allFields) : ∀ e ∈ f.element :: f.elements, Known table e := by
  obtain ⟨_, _, _, _, built⟩ := result.message member
  obtain ⟨_, _, _, fieldBuilt⟩ := built.field isField
  intro e isElement
  rcases List.mem_cons.mp isElement with rfl | isElement
  · exact fieldBuilt.known_element
  · exact fieldBuilt.known e isElement

theorem UnitBuilt.allEnums :
    List.Forall₂ (fun d e => buildEnum table file d.1 d.2 = .ok e) file.visibleEnums unit.allEnums := by
  refine List.rel_append ?_ ?_
  · exact List.forall₂_map_left_iff.mpr result.enums
  · rw [List.flatMap_def, List.flatMap_def]
    refine List.rel_flatten ?_
    rw [List.forall₂_map_left_iff, List.forall₂_map_right_iff]
    refine result.messages.imp fun n m built => List.forall₂_map_left_iff.mpr ?_
    obtain ⟨_, built⟩ := buildMessage_eq_ok built
    exact built.enums

theorem UnitBuilt.enum_symbol {e : EnumType} (member : e ∈ unit.allEnums) :
    ∃ s ∈ fileSymbols file, s.ref.fullName = e.fullName := by
  obtain ⟨⟨scope, d⟩, visible, built⟩ := result.allEnums.exists_left member
  obtain ⟨_, _, rfl⟩ := buildEnum_eq_ok.mp built
  exact ⟨_, Descriptor.File.symbol_of_enum visible, rfl⟩

end UnitBuilt

theorem UnitBuilt.methodRef_found {room : Room} {table : SymbolTable} {file : Descriptor.File} {unit : FileUnit}
    (built : UnitBuilt room table file unit) :
    ∀ ref ∈ unit.methodRefs, ∃ name s, table.find? name = some s ∧ s.ref = ref := by
  intro ref member
  obtain ⟨method, isMethod, member⟩ := List.mem_flatMap.mp member
  obtain ⟨service, isService, isMethod⟩ := List.mem_flatMap.mp isMethod
  obtain ⟨_, _, serviceBuilt⟩ := built.services.exists_left isService
  simp only [buildService, Result.bind_eq_ok, Result.pure_eq_ok, Result.mapM_eq_ok] at serviceBuilt
  obtain ⟨methods, walk, rfl⟩ := serviceBuilt
  obtain ⟨_, _, methodBuilt⟩ := walk.exists_left isMethod
  simp only [buildMethod, Result.bind_eq_ok, Result.pure_eq_ok] at methodBuilt
  obtain ⟨input, isInput, output, isOutput, rfl⟩ := methodBuilt
  rcases List.mem_cons.mp member with rfl | member
  · exact ⟨_, input, resolve_eq_ok isInput, rfl⟩
  · rw [List.mem_singleton.mp member]
    exact ⟨_, output, resolve_eq_ok isOutput, rfl⟩

theorem UnitBuilt.refs {room : Room} {table : SymbolTable} {file : Descriptor.File} {unit : FileUnit}
    (built : UnitBuilt room table file unit) : ∀ ref ∈ unit.refs, ∃ s ∈ table.newestFirst, s.ref = ref := by
  intro ref member
  rcases List.mem_append.mp member with member | member
  · obtain ⟨m, isMessage, member⟩ := List.mem_flatMap.mp member
    obtain ⟨f, isField, member⟩ := List.mem_flatMap.mp member
    obtain ⟨_, _, _, _, whole⟩ := built.message isMessage
    obtain ⟨_, _, _, fieldBuilt⟩ := whole.field isField
    exact fieldBuilt.refs ref member
  · obtain ⟨_, s, found, isRef⟩ := built.methodRef_found ref member
    exact ⟨s, (SymbolTable.mem_of_find found).1, isRef⟩

theorem UnitBuilt.ref_declared {room : Room} {read : List Descriptor.File} {file : Descriptor.File} {unit : FileUnit}
    (built : UnitBuilt room (.ofFiles read) file unit) : ∀ ref ∈ unit.refs,
      ∃ g ∈ read, ∃ path d, g.Declares path d ∧ ref = refAt g path := by
  intro ref member
  obtain ⟨s, inTable, rfl⟩ := built.refs ref member
  obtain ⟨g, isRead, declared⟩ := SymbolTable.mem_ofFiles.mp inTable
  obtain ⟨path, d, declares, rfl⟩ := Descriptor.File.mem_symbols_iff.mp declared
  exact ⟨g, isRead, path, d, declares, rfl⟩

theorem After.unit {files : List Descriptor.File} {resolver : Resolver}
    (state : After files resolver) {unit : FileUnit} (member : unit ∈ resolver.files) :
    ∃ before file after, files = before ++ file :: after ∧
      UnitBuilt hostRoom (.ofFiles (before ++ [file])) file unit := by
  obtain ⟨before, file, after, split, built⟩ := state.built unit member
  exact ⟨before, file, after, split, buildFile_eq_ok built⟩

theorem After.unit_of_file {files : List Descriptor.File} {resolver : Resolver}
    (state : After files resolver) (distinct : (files.map (·.name)).Nodup) {file : Descriptor.File}
    (member : file ∈ files) :
    ∃ unit ∈ resolver.files, resolver.find? file.name = some unit ∧
      ∃ before after, files = before ++ file :: after ∧
        UnitBuilt hostRoom (.ofFiles (before ++ [file])) file unit := by
  obtain ⟨unit, isUnit, found, named⟩ := state.find member
  obtain ⟨before, other, after, split, built⟩ := state.unit isUnit
  have isOther : other ∈ files := by simp [split]
  obtain rfl : other = file := file_eq_of_name distinct isOther member (built.name.symm.trans named)
  exact ⟨unit, isUnit, found, before, after, split, built⟩

theorem declared_of_found {files before after : List Descriptor.File} {file : Descriptor.File}
    (split : files = before ++ file :: after) {name : String} {s : Symbol}
    (found : (SymbolTable.ofFiles (before ++ [file])).find? name = some s) :
    ∃ g ∈ files, s ∈ fileSymbols g := by
  obtain ⟨inTable, _⟩ := SymbolTable.mem_of_find found
  obtain ⟨g, earlier, declared⟩ := SymbolTable.mem_ofFiles.mp inTable
  refine ⟨g, ?_, declared⟩
  rw [split]
  rcases List.mem_append.mp earlier with earlier | here
  · simp [earlier]
  · simp [List.mem_singleton.mp here]

end Resolver

end ProtoBindings
