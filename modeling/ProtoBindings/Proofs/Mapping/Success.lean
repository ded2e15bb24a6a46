import ProtoBindings.Mapping.Basic
import ProtoBindings.Proofs.Descriptor.Node
import ProtoBindings.Proofs.Name.Percent
import ProtoBindings.Proofs.Result
import ProtoBindings.Proofs.Schema.Fields
import ProtoBindings.Proofs.Template

namespace ProtoBindings

open Mapping (Transform)
open Schema (ElementType Field TypeRef)

/-- A reference all of whose parts can stand in a template. -/
structure Plain (ref : TypeRef) : Prop where
  file : PercentFree ref.file
  package : PercentFree ref.package
  path : ∀ name ∈ ref.path, PercentFree name

theorem plain_of_symbol {file : Descriptor.File} {s : Resolver.Symbol}
    (declared : s ∈ Resolver.fileSymbols file) (ofFile : PercentFree file.name)
    (ofName : PercentFree s.ref.fullName) : Plain s.ref := by
  obtain ⟨path, atPath⟩ := Descriptor.File.symbol_file declared
  rw [atPath] at ofName ⊢
  rw [Resolver.refAt, Schema.qualify] at ofName
  split at ofName
  · rename_i noPackage
    have empty : PercentFree "" := by decide
    exact ⟨ofFile, (congrArg PercentFree noPackage).mpr empty, percentFree_of_intercalate ofName⟩
  · rw [percentFree_append, percentFree_append] at ofName
    exact ⟨ofFile, ofName.1.1, percentFree_of_intercalate ofName.2⟩

theorem Plain.stem {ref : TypeRef} (plain : Plain ref) : PercentFree ref.stem :=
  Name.percentFree_snakeCase (percentFree_intercalate (by decide) plain.path)

theorem Plain.readerName {ref : TypeRef} (plain : Plain ref) : PercentFree ref.readerName :=
  percentFree_append.mpr ⟨plain.stem, by decide⟩

theorem Plain.writerName {ref : TypeRef} (plain : Plain ref) : PercentFree ref.writerName :=
  percentFree_append.mpr ⟨plain.stem, by decide⟩

namespace Mapper

def PlainPrefix (mapper : Mapper) : Prop :=
  ∀ part ∈ Name.components (mapper.scope.packagePrefix.getD ""), PercentFree part

/-- A type that the mapper has all it needs for. -/
inductive Supports (mapper : Mapper) : ElementType → Prop
  | scalar (type) : Supports mapper (.scalar type)
  | enum (ref) (first : String) : Plain ref → mapper.firstValue ref = .ok first →
      Supports mapper (.enum ref)
  | message (ref) : Plain ref → Supports mapper (.message ref)

variable {mapper : Mapper} {ref : TypeRef}

theorem percentFree_generatedName (ofPrefix : mapper.PlainPrefix) (plain : Plain ref) {id : String}
    (free : PercentFree id) : PercentFree (mapper.scope.generatedName ref id).expr.text := by
  rw [Scope.generatedName]
  split
  · exact free
  · rw [Code.Expr.text, Code.Expr.text, percentFree_append, percentFree_append]
    have ofModule := Name.percentFree_valueModule ofPrefix plain.package plain.file
    exact ⟨⟨Name.percentFree_moduleAlias ofModule, by decide⟩, free⟩

theorem generatedTransform_succeeds (ofPrefix : mapper.PlainPrefix) (plain : Plain ref)
    {function : String} (free : PercentFree function) :
    ∃ t, mapper.generatedTransform ref function = .ok t := by
  have checked := Template.ofText_call (percentFree_generatedName ofPrefix plain free)
  refine ⟨⟨.call (mapper.scope.generatedName ref function).expr,
    (mapper.scope.generatedName ref function).imports⟩, ?_⟩
  rw [generatedTransform, Conversion.checked, Conversion.template, Conversion.templateText, checked]
  rfl

variable {e : ElementType}

theorem mapElement_succeeds (supported : mapper.Supports e) : ∃ t, mapper.mapElement e = .ok t := by
  cases supported with
  | scalar type => exact ⟨_, rfl⟩
  | enum ref first _ found =>
    rw [mapElement, mapEnum, found]
    split
    · exact ⟨_, rfl⟩
    · exact ⟨_, rfl⟩
  | message ref => exact ⟨_, rfl⟩

theorem mapField_succeeds {f : Field} (supported : ∀ e ∈ f.elements, mapper.Supports e) :
    ∃ t, mapper.mapField f = .ok t := by
  cases f with
  | ordinary info =>
    obtain ⟨base, found⟩ := mapElement_succeeds (supported info.element List.mem_cons_self)
    rw [mapField, found]
    split
    · exact ⟨_, rfl⟩
    · split
      · exact ⟨_, rfl⟩
      · exact ⟨_, rfl⟩
  | map info key value =>
    obtain ⟨ofKey, found⟩ := mapElement_succeeds (supported key.element List.mem_cons_self)
    obtain ⟨ofValue, found'⟩ :=
      mapElement_succeeds (supported value.element (by simp [Field.elements]))
    rw [mapField, found, found']
    exact ⟨_, rfl⟩

section Prefix

variable (ofPrefix : mapper.PlainPrefix) (supported : mapper.Supports e)
include ofPrefix supported

theorem reader_succeeds : ∃ t, mapper.reader e = .ok t := by
  cases supported with
  | scalar type => exact ⟨_, rfl⟩
  | enum ref first plain _ =>
    rw [reader]
    split
    · exact ⟨_, rfl⟩
    · exact generatedTransform_succeeds ofPrefix plain plain.readerName
  | message ref plain =>
    rw [reader]
    split
    · exact ⟨_, rfl⟩
    · split
      · exact ⟨_, rfl⟩
      · exact generatedTransform_succeeds ofPrefix plain plain.readerName

theorem writer_succeeds : ∃ t, mapper.writer e = .ok t := by
  cases supported with
  | scalar type => exact ⟨_, rfl⟩
  | enum ref first plain _ =>
    rw [writer]
    split
    · exact ⟨_, rfl⟩
    · exact generatedTransform_succeeds ofPrefix plain plain.writerName
  | message ref plain =>
    rw [writer]
    split
    · exact ⟨_, rfl⟩
    · split
      · exact ⟨_, rfl⟩
      · exact generatedTransform_succeeds ofPrefix plain plain.writerName

end Prefix

end Mapper

end ProtoBindings
