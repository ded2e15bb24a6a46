import ProtoBindings.Proofs.Resolver.Order
import ProtoBindings.Proofs.Resolver.Unit

namespace ProtoBindings.Resolver

open Descriptor (Node)
open Schema (ElementType Field FieldInfo FileUnit Message TypeRef qualify)

def Declaration.isMapEntry : Declaration → Bool
  | .message m => m.isMapEntry
  | .enum => false

def Declaration.typeAt (ref : TypeRef) : Declaration → ElementType
  | .message _ => .message ref
  | .enum => .enum ref

/-- Of all that the files declare, `d` alone has the full name, and stands where the reference says. -/
structure PointsTo (files : List Descriptor.File) (name : String) (ref : TypeRef)
    (d : Declaration) : Prop where
  fullName : ref.fullName = name
  qualified : ref.fullName = qualify ref.package (".".intercalate ref.path)
  declared : ∃ file ∈ files, ref.file = file.name ∧ ref.package = file.package ∧
    file.Declares ref.path d
  only : ∀ file ∈ files, ∀ path other, file.Declares path other →
    qualify file.package (".".intercalate path) = name →
    file.name = ref.file ∧ file.package = ref.package ∧ path = ref.path ∧ other = d

structure Typed (files : List Descriptor.File) (field : Descriptor.Field) (f : Field)
    (d : Declaration) : Prop where
  names : NamesType field
  pointsTo : ∃ ref, f.element = d.typeAt ref ∧ PointsTo files (typeNameOf field) ref d
  isMap : f.isMap = true ↔ field.label = .repeated ∧ d.isMapEntry = true

/-- A field with all that its type consists of; the key and the value of a map field are the fields 1 and
    2 of the entry. -/
inductive FieldResolved (files : List Descriptor.File) : Descriptor.Field → Field → Prop
  | scalar {field info type} : info.name = field.name → info.number = field.number →
      field.type = .scalar type → info.element = .scalar type →
      FieldResolved files field (.ordinary info)
  | single {field info d} : info.name = field.name → info.number = field.number →
      Typed files field (.ordinary info) d → FieldResolved files field (.ordinary info)
  | map {field info key value entry keyField valueField} : info.name = field.name →
      info.number = field.number → Typed files field (.map info key value) (.message entry) →
      fieldNumbered? entry 1 = some keyField → FieldResolved files keyField key →
      fieldNumbered? entry 2 = some valueField → FieldResolved files valueField value →
      FieldResolved files field (.map info key value)

structure MessageResolved (files : List Descriptor.File) (n : Node) (m : Message) : Prop where
  fields : List.Forall₂ (FieldResolved files)
    (n.message.fields.filter (realOneof? n.message · == none)) m.fields
  oneofs : ∀ o ∈ m.oneofs, ∃ index, declaredOneof n.message.oneofs index = .ok o.name ∧
    List.Forall₂ (FieldResolved files)
      (n.message.fields.filter (realOneof? n.message · == some index)) o.fields

structure MethodResolved (files : List Descriptor.File) (method : Descriptor.Method)
    (m : Schema.Method) : Prop where
  name : m.name = method.name
  input : ∃ d, PointsTo files (Text.dropLeadingDots method.input) m.input d
  output : ∃ d, PointsTo files (Text.dropLeadingDots method.output) m.output d

/-- All that a file makes references of, next to what its unit has for it. -/
structure UnitResolved (files : List Descriptor.File) (file : Descriptor.File) (unit : FileUnit) :
    Prop where
  name : unit.name = file.name
  messages : List.Forall₂ (MessageResolved files) (file.nodes.filter (!·.isHidden)) unit.allMessages
  services : List.Forall₂ (fun service built =>
    List.Forall₂ (MethodResolved files) service.methods built.methods) file.services unit.services

theorem Symbol.element_eq (s : Symbol) : s.element = s.declaration.typeAt s.ref := by
  obtain ⟨ref, _ | _⟩ := s <;> rfl

theorem Symbol.entry_eq_none {s : Symbol} {label : Descriptor.Label} :
    s.entry? label = none ↔ ¬(label = .repeated ∧ s.declaration.isMapEntry = true) := by
  obtain ⟨ref, m | _⟩ := s
  · simp [Symbol.entry?, Declaration.isMapEntry]
  · simp [Symbol.entry?, Declaration.isMapEntry]

section Distinct

variable {room : Room} {files before after : List Descriptor.File} {file : Descriptor.File}
  (distinct : Distinct files) (split : files = before ++ file :: after)
include distinct split

theorem Distinct.pointsTo {name : String} {s : Symbol}
    (found : (SymbolTable.ofFiles (before ++ [file])).find? name = some s) :
    PointsTo files name s.ref s.declaration := by
  obtain ⟨g, isFile, declared⟩ := declared_of_found split found
  obtain ⟨_, named⟩ := SymbolTable.mem_of_find found
  obtain ⟨path, d, declares, rfl⟩ := Descriptor.File.mem_symbols_iff.mp declared
  refine ⟨named, rfl, ⟨g, isFile, rfl, rfl, declares⟩, ?_⟩
  intro other isOther path' d' declares' same
  have isSymbol : ⟨refAt other path', d'⟩ ∈ fileSymbols other :=
    Descriptor.File.mem_symbols_iff.mpr ⟨path', d', declares', rfl⟩
  have sameSymbol := distinct.symbol_eq isOther isFile isSymbol declared (same.trans named.symm)
  simp only [refAt, Symbol.mk.injEq, TypeRef.mk.injEq] at sameSymbol
  obtain ⟨⟨_, file, package, path⟩, declaration⟩ := sameSymbol
  exact ⟨file, package, path, declaration⟩

theorem Distinct.typed {field : Descriptor.Field} (names : NamesType field) {s : Symbol}
    (found : (SymbolTable.ofFiles (before ++ [file])).find? (typeNameOf field) = some s) {f : Field}
    (element : f.element = s.element)
    (isMap : f.isMap = true ↔ field.label = .repeated ∧ s.declaration.isMapEntry = true) :
    Typed files field f s.declaration :=
  ⟨names, ⟨s.ref, element.trans s.element_eq, distinct.pointsTo split found⟩, isMap⟩

/-- The induction is on how deep entries are followed: a key or a value is built one level down. -/
theorem Distinct.field_resolved {depth : Nat} {field : Descriptor.Field} {oneof : Option String}
    {f : Field} (built : FieldBuilt (.ofFiles (before ++ [file])) field oneof depth f) :
    FieldResolved files field f := by
  induction depth generalizing field oneof f with
  | zero => cases built
  | succ depth ih =>
    cases built with
    | scalar type kind => exact .scalar rfl rfl kind rfl
    | named s names found single =>
      have notMap := Symbol.entry_eq_none.mp single
      exact .single rfl rfl (distinct.typed split names found rfl (by simpa [Field.isMap] using notMap))
    | map s entry keyField valueField context key value names found isEntry isKey isValue keyBuilt
        valueBuilt =>
      obtain ⟨declared, repeated, ofMap⟩ := Symbol.entry_eq_some.mp isEntry
      refine .map rfl rfl ?_ (fieldNumbered?_of_ok isKey) (ih (buildFieldTo_eq_ok keyBuilt))
        (fieldNumbered?_of_ok isValue) (ih (buildFieldTo_eq_ok valueBuilt))
      rw [← declared]
      refine distinct.typed split names found (Symbol.element_of_entry isEntry).symm ?_
      simpa [Field.isMap, declared, Declaration.isMapEntry] using ⟨repeated, ofMap⟩

theorem Distinct.message_resolved {n : Node} {m : Message}
    (built : buildMessage room (.ofFiles (before ++ [file])) file n.scope n.message = .ok m) :
    MessageResolved files n m := by
  obtain ⟨placed, whole⟩ := buildMessage_eq_ok built
  constructor
  · rw [whole.fields]
    refine whole.places.filter_map ?_ ?_
    · intro field _ place isPlaced
      rw [(placeField_eq_ok isPlaced).1]
      cases realOneof? n.message field <;> rfl
    · intro field place isPlaced
      obtain ⟨_, _, _, fieldBuilt⟩ := placeField_eq_ok isPlaced
      exact distinct.field_resolved split fieldBuilt
  · intro o isOneof
    obtain ⟨index, _, declared, fields⟩ := whole.oneof isOneof
    refine ⟨index, declared, ?_⟩
    rw [fields]
    refine whole.places.filter_map ?_ ?_
    · intro field _ place isPlaced
      rw [(placeField_eq_ok isPlaced).1]
    · intro field place isPlaced
      obtain ⟨_, _, _, fieldBuilt⟩ := placeField_eq_ok isPlaced
      exact distinct.field_resolved split fieldBuilt

theorem Distinct.method_resolved {service : String} {method : Descriptor.Method} {m : Schema.Method}
    (built : buildMethod (.ofFiles (before ++ [file])) service method = .ok m) :
    MethodResolved files method m := by
  simp only [buildMethod, Result.bind_eq_ok, Result.pure_eq_ok] at built
  obtain ⟨input, inputFound, output, outputFound, rfl⟩ := built
  exact ⟨rfl, ⟨_, distinct.pointsTo split (resolve_eq_ok inputFound)⟩,
    ⟨_, distinct.pointsTo split (resolve_eq_ok outputFound)⟩⟩

theorem Distinct.unit_resolved {unit : FileUnit}
    (built : UnitBuilt room (.ofFiles (before ++ [file])) file unit) : UnitResolved files file unit where
  name := built.name
  messages := built.messages.imp fun _ _ isBuilt => distinct.message_resolved split isBuilt
  services := built.services.imp fun service s isBuilt => by
    simp only [buildService, Result.bind_eq_ok, Result.pure_eq_ok, Result.mapM_eq_ok] at isBuilt
    obtain ⟨methods, walk, rfl⟩ := isBuilt
    exact walk.imp fun _ _ isMethod => distinct.method_resolved split isMethod

end Distinct

/-- Files with distinct names and declarations have one unit each, in their order, and each reference in
    it leads to the one declaration that is meant. -/
theorem references_resolved {files : List Descriptor.File} (distinct : Distinct files)
    {resolver : Resolver} (resolved : resolve files = .ok resolver) :
    List.Forall₂ (UnitResolved files) files resolver.files := by
  have sameName := List.Forall₂.of_map_eq (resolve_names distinct.fileNames resolved)
  refine sameName.imp_of_mem fun file isFile unit isUnit named => ?_
  obtain ⟨before, other, after, split, built⟩ := (after_resolve resolved).unit isUnit
  have isOther : other ∈ files := by simp [split]
  obtain rfl : file = other :=
    file_eq_of_name distinct.fileNames isFile isOther (named.trans built.name)
  exact distinct.unit_resolved split built

def paints : Descriptor.File where
  name := "paints.proto"
  messages := [{ name := "Paint", enums := [{ name := "Finish", values := [{ name := "MATT" }] }] }]

def atelier : Descriptor.File where
  name := "atelier.proto"
  package := "art"
  dependencies := ["paints.proto"]
  messages := [
    { name := "Easel"
      fields := [
        { name := "canvas", number := 1, type := .message, typeName := ".art.Canvas" },
        { name := "finish", number := 2, type := .enum, typeName := ".Paint.Finish", oneofIndex := some 0 },
        { name := "paints", number := 3, type := .message, label := .repeated,
          typeName := ".art.Easel.PaintsEntry" }]
      oneofs := ["coat"]
      messages := [{
        name := "PaintsEntry"
        fields := [
          { name := "key", number := 1, type := .scalar .string },
          { name := "value", number := 2, type := .message, typeName := ".Paint" }]
        isMapEntry := true }] },
    { name := "Canvas" }]
  services := [{ name := "Atelier", methods := [
    { name := "Stretch", input := ".art.Canvas", output := ".art.Easel" }] }]

theorem atelier_resolved : ∃ resolver, Distinct [paints, atelier] ∧
    resolve [paints, atelier] = .ok resolver ∧
    List.Forall₂ (UnitResolved [paints, atelier]) [paints, atelier] resolver.files := by
  have distinct : Distinct [paints, atelier] := ⟨by decide +kernel, by decide +kernel⟩
  have succeeds : (resolve [paints, atelier]).toOption.isSome := by decide +kernel
  obtain ⟨resolver, resolved⟩ := Result.exists_of_isSome succeeds
  exact ⟨resolver, distinct, resolved, references_resolved distinct resolved⟩

end ProtoBindings.Resolver
