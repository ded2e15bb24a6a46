import ProtoBindings.Proofs.Code.Signature
import ProtoBindings.Proofs.Value.Module

namespace ProtoBindings.Value

open Code (Function)
open Schema (EnumType Message)

def Declaration.methods : Declaration → List Function
  | dataClass definition => definition.methods
  | union _ _ => []

def Module.allFunctions (m : Module) : List Function :=
  m.declarations.flatMap (·.methods) ++ m.functions

variable {mapper : Mapper} {m : Message}

theorem enumFunctions_legal {e : EnumType} {f : Function} (isFunction : f ∈ enumFunctions e) :
    f.toText.Legal := by
  simp only [enumFunctions, List.mem_cons, List.not_mem_nil, or_false] at isFunction
  rcases isFunction with rfl | rfl
  · exact Function.legal_of_names ["number"] rfl (by decide) (by decide) rfl
  · exact Function.legal_of_names ["value"] rfl (by decide) (by decide) rfl

theorem DeclaredBy.methods_legal {d : Declaration} (declared : DeclaredBy mapper m d) :
    ∀ f ∈ d.methods, f.toText.Legal := by
  intro f isMethod
  cases declared with
  | variant _ _ found =>
    rw [Declaration.methods, (variantClass_eq_ok found).2.1] at isMethod
    cases isMethod
  | union => cases isMethod
  | message built =>
    rw [Declaration.methods, built.methods] at isMethod
    obtain ⟨field, _, rfl⟩ := List.mem_map.mp isMethod
    exact Function.legal_of_names ["self"] rfl (by decide) (by decide) rfl

theorem ConvertedBy.legal {f : Function} (converted : ConvertedBy mapper m f) : f.toText.Legal := by
  cases converted with
  | reader found =>
    obtain ⟨_, _, same⟩ := Result.bind_eq_ok.mp found
    cases same
    exact Function.legal_of_names ["message"] rfl (by decide) (by decide) rfl
  | writer found =>
    obtain ⟨_, _, same⟩ := Result.bind_eq_ok.mp found
    cases same
    exact Function.legal_of_names ["value"] rfl (by decide) (by decide) rfl
  | oneofReader _ found =>
    obtain ⟨_, _, same⟩ := Result.bind_eq_ok.mp found
    cases same
    exact Function.legal_of_names ["message"] rfl (by decide) (by decide) rfl
  | oneofWriter _ found =>
    obtain ⟨_, _, same⟩ := Result.bind_eq_ok.mp found
    cases same
    exact Function.legal_of_names ["value", "message"] rfl (by decide) (by decide) rfl
  | toBytes => exact Function.legal_of_names ["value"] rfl (by decide) (by decide) rfl
  | fromBytes => exact Function.legal_of_names ["data"] rfl (by decide) (by decide) rfl

theorem Module.signatures_legal {unit : Schema.FileUnit} {module : Module}
    (result : Module.ofUnit mapper unit = .ok module) : ∀ f ∈ module.allFunctions, f.toText.Legal := by
  obtain ⟨declarations, functions, built⟩ := Module.ofUnit_eq_ok result
  intro f isFunction
  rcases List.mem_append.mp isFunction with isMethod | isFunction
  · obtain ⟨d, isDeclared, ofDeclaration⟩ := List.mem_flatMap.mp isMethod
    obtain ⟨m, _, declared⟩ := built.declaredBy isDeclared
    exact declared.methods_legal f ofDeclaration
  · rcases built.convertedBy isFunction with ⟨e, _, ofEnum⟩ | ⟨m, _, converted⟩
    · exact enumFunctions_legal ofEnum
    · exact converted.legal

end ProtoBindings.Value
