import ProtoBindings.Proofs.Mapping.Success

namespace ProtoBindings

open Mapping (MappedType Transform)
open Schema (ElementType Field TypeRef)

theorem WellKnown.isGoogleType_of_found {fullName : String} {known : WellKnown}
    (found : ofFullName? fullName = some known) : isGoogleType fullName = true := by
  have named : known.fullName = fullName := by simpa using List.find?_some found
  have each : ∀ known ∈ all, isGoogleType known.fullName = true := by decide
  exact named ▸ each known (List.mem_of_find?_eq_some found)

namespace Mapper

variable {mapper : Mapper} {ref : TypeRef} {e : ElementType}

def Knows (mapper : Mapper) : ElementType → Prop
  | .scalar _ | .message _ => True
  | .enum ref => isGoogleType ref.fullName = true ∨
      ∃ e, mapper.enums.find? ref.fullName = some e ∧ e.values ≠ []
  | .unknownScalar _ | .undeclared _ | .missing => False

/-- The mapper can write down the function that converts values of this type, if there has to be one. -/
def Spells (mapper : Mapper) (function : TypeRef → String) : ElementType → Prop
  | .scalar _ | .unknownScalar _ => True
  | .enum ref | .message ref => isGoogleType ref.fullName = true ∨
      PercentFree (mapper.scope.generatedName ref (function ref)).expr.text
  | .undeclared _ | .missing => False

theorem firstValue_answers :
    (∃ first, mapper.firstValue ref = .ok first) ↔
      ∃ e, mapper.enums.find? ref.fullName = some e ∧ e.values ≠ [] := by
  rw [firstValue]
  cases found : mapper.enums.find? ref.fullName with
  | none => simp
  | some e => cases values : e.values <;> simp [values]

theorem mapElement_answers : (∃ t, mapper.mapElement e = .ok t) ↔ mapper.Knows e := by
  cases e with
  | enum ref =>
    rw [mapElement, mapEnum, Knows, ← firstValue_answers]
    split
    · rename_i google
      simp [google, Result.pure_eq_ok]
    · rename_i generated
      simp only [generated, Bool.false_eq_true, false_or]
      constructor
      · rintro ⟨t, result⟩
        obtain ⟨first, found, _⟩ := Result.bind_eq_ok.mp result
        exact ⟨first, found⟩
      · rintro ⟨first, found⟩
        rw [found]
        exact ⟨_, rfl⟩
  | _ => simp [mapElement, Knows]

theorem mapField_answers {f : Field} :
    (∃ t, mapper.mapField f = .ok t) ↔ ∀ e ∈ f.elements, mapper.Knows e := by
  simp only [← mapElement_answers]
  cases f with
  | map info key value =>
    rw [mapField, Field.elements, List.forall_mem_cons, List.forall_mem_singleton]
    constructor
    · rintro ⟨t, result⟩
      obtain ⟨ofKey, found, result⟩ := Result.bind_eq_ok.mp result
      obtain ⟨ofValue, found', _⟩ := Result.bind_eq_ok.mp result
      exact ⟨⟨ofKey, found⟩, ⟨ofValue, found'⟩⟩
    · rintro ⟨⟨ofKey, found⟩, ⟨ofValue, found'⟩⟩
      rw [found, found']
      exact ⟨_, rfl⟩
  | ordinary info =>
    rw [mapField, Field.elements, List.forall_mem_singleton]
    constructor
    · rintro ⟨t, result⟩
      obtain ⟨base, found, _⟩ := Result.bind_eq_ok.mp result
      exact ⟨base, found⟩
    · rintro ⟨base, found⟩
      rw [found]
      split
      · exact ⟨_, rfl⟩
      · split
        · exact ⟨_, rfl⟩
        · exact ⟨_, rfl⟩

theorem generatedTransform_answers {function : String} :
    (∃ t, mapper.generatedTransform ref function = .ok t) ↔
      PercentFree (mapper.scope.generatedName ref function).expr.text := by
  rw [← Template.ofText_call_iff, generatedTransform, Conversion.checked, Conversion.template,
    Conversion.templateText]
  simp only [Result.bind_eq_ok, Result.mapError_eq_ok, Result.map_eq_ok]
  constructor
  · rintro ⟨_, _, ⟨template, found, _⟩, _⟩
    exact ⟨template, found⟩
  · rintro ⟨template, found⟩
    exact ⟨_, _, ⟨template, found, rfl⟩, rfl⟩

theorem unlessGoogle_answers {function : String} {known : Transform} :
    (∃ t, (if isGoogleType ref.fullName then .ok known
        else mapper.generatedTransform ref function) = .ok t) ↔
      isGoogleType ref.fullName = true ∨
        PercentFree (mapper.scope.generatedName ref function).expr.text := by
  split
  · rename_i google
    simp [google]
  · rename_i generated
    simp [generated, generatedTransform_answers]

theorem reader_answers : (∃ t, mapper.reader e = .ok t) ↔ mapper.Spells (·.readerName) e := by
  cases e with
  | enum ref => exact unlessGoogle_answers
  | message ref =>
    rw [reader, Spells]
    split
    · rename_i known found
      simp [WellKnown.isGoogleType_of_found found]
    · exact unlessGoogle_answers
  | _ => simp [reader, Spells]

theorem writer_answers : (∃ t, mapper.writer e = .ok t) ↔ mapper.Spells (·.writerName) e := by
  cases e with
  | enum ref => exact unlessGoogle_answers
  | message ref =>
    rw [writer, Spells]
    split
    · rename_i known found
      simp [WellKnown.isGoogleType_of_found found]
    · exact unlessGoogle_answers
  | _ => simp [writer, Spells]

end Mapper

end ProtoBindings
