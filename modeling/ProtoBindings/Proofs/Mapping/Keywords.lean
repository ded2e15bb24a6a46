import ProtoBindings.Proofs.Code.Identifiers
import ProtoBindings.Proofs.Schema.Fields
import ProtoBindings.Proofs.Value.Written

namespace ProtoBindings

open Code (Expr)
open Mapping (MappedType Transform)
open Name (KeywordFree isKeyword)
open Schema (ElementType Field TypeRef)

section Names

variable (ref : TypeRef)

@[simp] theorem isKeyword_className : isKeyword ref.className = false := Name.isKeyword_escape _

@[simp] theorem isKeyword_readerName : isKeyword ref.readerName = false :=
  Name.isKeyword_of_underscore (by simp [TypeRef.readerName])

@[simp] theorem isKeyword_writerName : isKeyword ref.writerName = false :=
  Name.isKeyword_of_underscore (by simp [TypeRef.writerName])

@[simp] theorem isKeyword_moduleAlias (module : String) : isKeyword (Name.moduleAlias module) = false :=
  Name.isKeyword_underscore_append _

variable {ref}

@[simp] theorem keywordFree_hostClass :
    KeywordFree (hostClass ref).expr.identifiers ↔ KeywordFree ref.path := by
  rw [hostClass, Code.Expr.identifiers_path]
  by_cases outermost : ref.path = []
  · simp [outermost, Code.Expr.identifiers, (by decide : isKeyword "" = false)]
  · simp [outermost, Code.Expr.identifiers]

@[simp] theorem keywordFree_generatedName {scope : Scope} {id : String} :
    KeywordFree (scope.generatedName ref id).expr.identifiers ↔ isKeyword id = false := by
  rw [Scope.generatedName]
  split
  · exact Code.keywordFree_name
  · simp

end Names

namespace WellKnown

variable (known : WellKnown)

theorem keywordFree_nativeType : KeywordFree known.nativeType.identifiers := by
  cases known <;> decide

theorem keywordFree_default : KeywordFree known.default.identifiers := by
  cases known <;> decide

theorem keywordFree_reader : KeywordFree known.reader.identifiers := by
  cases known <;> decide

theorem keywordFree_writer : KeywordFree known.writer.identifiers := by
  cases known <;> decide

end WellKnown

def Schema.ElementType.hostRef? : ElementType → Option TypeRef
  | .message ref =>
    if WellKnown.ofFullName? ref.fullName = none ∧ isGoogleType ref.fullName = true then some ref
    else none
  | _ => none

def Schema.ElementType.Clear (e : ElementType) : Prop := ∀ ref ∈ e.hostRef?, KeywordFree ref.path

instance (e : ElementType) : Decidable e.Clear :=
  inferInstanceAs (Decidable (∀ ref ∈ e.hostRef?, KeywordFree ref.path))

def Schema.Field.Clear (f : Field) : Prop := ∀ e ∈ f.elements, e.Clear

instance (f : Field) : Decidable f.Clear :=
  inferInstanceAs (Decidable (∀ e ∈ f.elements, e.Clear))

namespace Mapper

variable {mapper : Mapper} {e : ElementType} {f : Field}

theorem mapElement_keywordFree_iff {mapped : MappedType} (result : mapper.mapElement e = .ok mapped) :
    (KeywordFree mapped.type.identifiers ↔ e.Clear) ∧
      (e.Clear → KeywordFree mapped.default.toExpr.identifiers) := by
  cases e with
  | scalar type =>
    cases result
    cases type <;> exact ⟨by decide, fun _ => by decide⟩
  | enum ref =>
    have clear : (ElementType.enum ref).Clear := fun _ none => by cases none
    simp only [mapElement, mapEnum] at result
    split at result
    · cases result
      exact ⟨by simp [clear, (by decide : isKeyword "int" = false)], fun _ => by decide⟩
    · simp only [Result.bind_eq_ok, Result.pure_eq_ok] at result
      obtain ⟨first, _, rfl⟩ := result
      simp [clear, Mapping.Default.toExpr, Scope.generatedClass]
  | message ref =>
    cases result
    rw [mapMessage]
    split
    · rename_i known found
      have clear : (ElementType.message ref).Clear := by
        intro other isHost
        simp [ElementType.hostRef?, found] at isHost
      simp [clear, known.keywordFree_nativeType, Mapping.Default.toExpr, known.keywordFree_default]
    · rename_i unknown
      have factory {type : Expr} (free : KeywordFree type.identifiers) :
          KeywordFree (Mapping.Default.factory type).toExpr.identifiers := by
        have fixed : KeywordFree ["dataclasses", "field", "default_factory"] := by decide
        simpa [Mapping.Default.toExpr, Expr.identifiers, Code.Arguments.identifiers, free] using fixed
      split
      · rename_i google
        have clear : (ElementType.message ref).Clear ↔ KeywordFree ref.path := by
          simp [ElementType.Clear, ElementType.hostRef?, unknown, google]
        rw [clear, instances]
        exact ⟨keywordFree_hostClass, fun free => factory (keywordFree_hostClass.mpr free)⟩
      · rename_i own
        have clear : (ElementType.message ref).Clear := by
          intro other isHost
          simp [ElementType.hostRef?, own] at isHost
        have free : KeywordFree (mapper.scope.generatedClass ref).expr.identifiers := by
          simp [Scope.generatedClass]
        exact ⟨by simp [clear, instances, free], fun _ => factory free⟩
  | unknownScalar | undeclared | missing => cases result

theorem mapField_keywordFree_iff {mapped : MappedType} (result : mapper.mapField f = .ok mapped) :
    (KeywordFree mapped.type.identifiers ↔ f.Clear) ∧
      (f.Clear → KeywordFree mapped.default.toExpr.identifiers) := by
  have fixed : isKeyword "Dict" = false ∧ isKeyword "List" = false ∧ isKeyword "Optional" = false := by
    decide
  have dict : KeywordFree (Mapping.Default.factory (.name "dict")).toExpr.identifiers := by decide
  have list : KeywordFree (Mapping.Default.factory (.name "list")).toExpr.identifiers := by decide
  cases f with
  | map info key value =>
    simp only [mapField, Result.bind_eq_ok, Result.pure_eq_ok] at result
    obtain ⟨ofKey, isKey, ofValue, isValue, rfl⟩ := result
    have keyType := (mapElement_keywordFree_iff isKey).1
    have valueType := (mapElement_keywordFree_iff isValue).1
    exact ⟨by simp [Field.Clear, Field.elements, fixed, keyType, valueType], fun _ => dict⟩
  | ordinary info =>
    have clear : (Field.ordinary info).Clear ↔ info.element.Clear := by
      simp [Field.Clear, Field.elements]
    simp only [mapField, Result.bind_eq_ok] at result
    obtain ⟨base, isBase, result⟩ := result
    obtain ⟨type, default⟩ := mapElement_keywordFree_iff isBase
    rw [clear]
    split at result
    · cases result
      exact ⟨by simp [fixed, type], fun _ => list⟩
    · split at result
      · cases result
        exact ⟨by simp [fixed, type], fun _ => Code.keywordFree_none⟩
      · cases result
        exact ⟨type, default⟩

variable {t : Transform}

theorem generatedTransform_keywordFree {ref : TypeRef} {function : String}
    (result : mapper.generatedTransform ref function = .ok t) (free : isKeyword function = false) :
    KeywordFree t.conversion.identifiers := by
  rw [generatedTransform_eq_ok result]
  exact keywordFree_generatedName.mpr free

theorem reader_keywordFree (result : mapper.reader e = .ok t) :
    KeywordFree t.conversion.identifiers := by
  have copied : KeywordFree (WellKnown.supportName "copy_message").identifiers := by decide
  unfold reader at result
  split at result
  · cases result; exact Name.keywordFree_nil
  · cases result; exact Name.keywordFree_nil
  · split at result
    · cases result; exact Name.keywordFree_nil
    · exact generatedTransform_keywordFree result (isKeyword_readerName _)
  · split at result
    · rename_i known _
      cases result
      exact known.keywordFree_reader
    · split at result
      · cases result; exact copied
      · exact generatedTransform_keywordFree result (isKeyword_readerName _)
  · cases result
  · cases result

theorem writer_keywordFree (result : mapper.writer e = .ok t) :
    KeywordFree t.conversion.identifiers := by
  unfold writer at result
  split at result
  · cases result; exact Name.keywordFree_nil
  · cases result; exact Name.keywordFree_nil
  · split at result
    · cases result; exact Name.keywordFree_nil
    · exact generatedTransform_keywordFree result (isKeyword_writerName _)
  · split at result
    · rename_i known _
      cases result
      exact known.keywordFree_writer
    · split at result
      · cases result; exact Name.keywordFree_nil
      · exact generatedTransform_keywordFree result (isKeyword_writerName _)
  · cases result
  · cases result

end Mapper

end ProtoBindings
