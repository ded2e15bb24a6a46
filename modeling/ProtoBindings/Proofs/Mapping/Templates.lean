import ProtoBindings.Mapping.Basic
import ProtoBindings.Proofs.Result
import ProtoBindings.Proofs.Template

namespace ProtoBindings

open Mapping (Transform)
open Schema (ElementType TypeRef)

namespace Conversion

variable {c : Conversion} {t : Template}

/-- A template that says as text what a conversion does. -/
structure WrittenAs (c : Conversion) (t : Template) : Prop where
  read : c.template = .ok t
  applied : ∀ e, (c.apply e).text = t.render e.text
  callable : c.callable.text = t.callable

theorem text_apply (function e : Code.Expr) :
    (function.apply [e]).text = function.text ++ "(" ++ e.text ++ ")" := by
  simp [Code.Expr.apply, Code.Arguments.ofList, Code.Expr.text, Code.Arguments.texts]

theorem identity_written : identity.WrittenAs (.around "" "") where
  read := Template.ofText_eq_ok.mpr ⟨rfl, by decide, by decide⟩
  applied e := by simp [apply, Template.render]
  callable := by decide

theorem content_written : content.WrittenAs (.around "" ".value") where
  read := Template.ofText_eq_ok.mpr ⟨rfl, by decide, by decide⟩
  applied e := by
    rw [apply, Code.Expr.text, Template.render, String.empty_append, String.append_assoc]
    rfl
  callable := by decide

theorem constant_written {result : Code.Expr} (free : PercentFree result.text) :
    (constant result).WrittenAs (.constant result.text) where
  read := Template.ofText_eq_ok.mpr ⟨rfl, free⟩
  applied _ := rfl
  callable := rfl

theorem call_written {function : Code.Expr} (read : (call function).template = .ok t) :
    (call function).WrittenAs t := by
  obtain ⟨same, sound⟩ := Template.ofText_eq_ok.mp read
  obtain rfl := sound.eq_around (same.trans (Template.text_call function.text ")").symm)
  refine ⟨read, fun e => text_apply function e, ?_⟩
  rw [Conversion.callable, Template.callable]
  split
  · rename_i dotted
    have called := Template.callee?_around.mpr
      ⟨Template.isDottedWord_iff.mp dotted, rfl, Or.inl (Eq.refl ")")⟩
    rw [called]
  · rename_i undotted
    have uncalled : (Template.around (function.text ++ "(") ")").callee? = none := by
      refine Option.eq_none_iff_forall_ne_some.mpr fun name called => undotted ?_
      obtain ⟨dotted, same, _⟩ := Template.callee?_around.mp called
      rw [(String.append_left_inj _).mp same]
      exact Template.isDottedWord_iff.mpr dotted
    rw [uncalled, Code.Expr.text, text_apply, Code.Expr.text, Template.render]

end Conversion

theorem WellKnown.reader_written (known : WellKnown) : ∃ t, known.reader.WrittenAs t := by
  cases known
  case empty => exact ⟨_, Conversion.constant_written (by decide)⟩
  case timestamp | duration => exact ⟨_, Conversion.call_written rfl⟩
  all_goals exact ⟨_, Conversion.content_written⟩

theorem WellKnown.writer_written (known : WellKnown) : ∃ t, known.writer.WrittenAs t := by
  cases known
  case empty => exact ⟨_, Conversion.constant_written (by decide +kernel)⟩
  all_goals exact ⟨_, Conversion.call_written rfl⟩

namespace Mapper

variable {mapper : Mapper} {e : ElementType} {transform : Transform}

theorem generatedTransform_written {ref : TypeRef} {function : String}
    (result : mapper.generatedTransform ref function = .ok transform) :
    ∃ t, transform.conversion.WrittenAs t := by
  rw [generatedTransform, Conversion.checked] at result
  simp only [Result.bind_eq_ok, Result.mapError_eq_ok, Result.map_eq_ok, Result.pure_eq_ok] at result
  obtain ⟨_, ⟨t, read, rfl⟩, rfl⟩ := result
  exact ⟨t, Conversion.call_written read⟩

theorem reader_written (result : mapper.reader e = .ok transform) :
    ∃ t, transform.conversion.WrittenAs t := by
  unfold reader at result
  split at result
  · cases result; exact ⟨_, Conversion.identity_written⟩
  · cases result; exact ⟨_, Conversion.identity_written⟩
  · split at result
    · cases result; exact ⟨_, Conversion.identity_written⟩
    · exact generatedTransform_written result
  · split at result
    · rename_i known _
      cases result
      exact known.reader_written
    · split at result
      · cases result; exact ⟨_, Conversion.call_written rfl⟩
      · exact generatedTransform_written result
  · cases result
  · cases result

theorem writer_written (result : mapper.writer e = .ok transform) :
    ∃ t, transform.conversion.WrittenAs t := by
  unfold writer at result
  split at result
  · cases result; exact ⟨_, Conversion.identity_written⟩
  · cases result; exact ⟨_, Conversion.identity_written⟩
  · split at result
    · cases result; exact ⟨_, Conversion.identity_written⟩
    · exact generatedTransform_written result
  · split at result
    · rename_i known _
      cases result
      exact known.writer_written
    · split at result
      · cases result; exact ⟨_, Conversion.identity_written⟩
      · exact generatedTransform_written result
  · cases result
  · cases result

end Mapper

end ProtoBindings
