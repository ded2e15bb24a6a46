import ProtoBindings.Output
import ProtoBindings.Proofs.Value.Parts

namespace ProtoBindings

open Mapping (EnumIndex)
open Schema (ElementType Field FileUnit Member Message TypeRef)

variable {first second : EnumIndex}

/-- Both indices have the same enum for a type, if it is an enum. -/
def ElementAlike (first second : EnumIndex) (e : ElementType) : Prop :=
  ∀ ref, e = .enum ref → first.find? ref.fullName = second.find? ref.fullName

def MessageAlike (first second : EnumIndex) (m : Message) : Prop :=
  ∀ f ∈ m.allFields, ∀ e ∈ f.elements, ElementAlike first second e

namespace Mapper

variable (scope : Scope)

theorem mapElement_alike {e : ElementType} (alike : ElementAlike first second e) :
    mapElement ⟨scope, first⟩ e = mapElement ⟨scope, second⟩ e := by
  cases e with
  | enum ref =>
    have sameFirst : firstValue ⟨scope, first⟩ ref = firstValue ⟨scope, second⟩ ref := by
      rw [firstValue, firstValue, alike ref rfl]
    rw [mapElement, mapElement, mapEnum, mapEnum, sameFirst]
  | _ => rfl

theorem mapField_alike {f : Field} (alike : ∀ e ∈ f.elements, ElementAlike first second e) :
    mapField ⟨scope, first⟩ f = mapField ⟨scope, second⟩ f := by
  cases f with
  | ordinary info =>
    rw [mapField, mapField, mapElement_alike scope (alike info.element List.mem_cons_self)]
  | map info key value =>
    rw [mapField, mapField, mapElement_alike scope (alike key.element List.mem_cons_self),
      mapElement_alike scope (alike value.element (by simp [Field.elements]))]

end Mapper

namespace Value

variable (scope : Scope) {m : Message}

theorem fieldAttribute_alike {f : Field} (alike : ∀ e ∈ f.elements, ElementAlike first second e) :
    fieldAttribute ⟨scope, first⟩ f = fieldAttribute ⟨scope, second⟩ f := by
  rw [fieldAttribute, fieldAttribute, Mapper.mapField_alike scope alike]

theorem messageDeclarations_alike (alike : MessageAlike first second m) :
    messageDeclarations ⟨scope, first⟩ m = messageDeclarations ⟨scope, second⟩ m := by
  have oneofs : ∀ o ∈ m.oneofs,
      oneofDeclarations ⟨scope, first⟩ m o = oneofDeclarations ⟨scope, second⟩ m o := by
    intro o isOneof
    have variants : ∀ f ∈ o.fields,
        variantClass ⟨scope, first⟩ m o f = variantClass ⟨scope, second⟩ m o f := by
      intro f isField
      have inMessage := Message.mem_allFields.mpr (.inr ⟨o, isOneof, isField⟩)
      rw [variantClass, variantClass, fieldAttribute_alike scope (alike f inMessage)]
    rw [oneofDeclarations, oneofDeclarations, Result.mapM_congr variants]
  have members : ∀ member ∈ m.members,
      memberAttribute ⟨scope, first⟩ m member = memberAttribute ⟨scope, second⟩ m member := by
    intro member found
    rcases Message.mem_members found with ⟨f, isField, rfl⟩ | ⟨o, _, rfl⟩
    · exact fieldAttribute_alike scope (alike f (Message.mem_allFields.mpr (.inl isField)))
    · rfl
  rw [messageDeclarations, messageDeclarations, Result.mapM_congr oneofs, eachMember_congr members]

theorem messageFunctions_eq (m : Message) (first second : EnumIndex) :
    messageFunctions ⟨scope, first⟩ m = messageFunctions ⟨scope, second⟩ m := rfl

theorem Module.ofUnit_alike {unit : FileUnit}
    (alike : ∀ m ∈ unit.allMessages, MessageAlike first second m) :
    Module.ofUnit ⟨scope, first⟩ unit = Module.ofUnit ⟨scope, second⟩ unit := by
  have declarations := Result.mapM_congr fun m member =>
    messageDeclarations_alike scope (alike m member)
  have functions : unit.allMessages.mapM (messageFunctions ⟨scope, first⟩) =
      unit.allMessages.mapM (messageFunctions ⟨scope, second⟩) :=
    Result.mapM_congr fun m _ => messageFunctions_eq scope m first second
  rw [Module.ofUnit, Module.ofUnit, declarations, functions]

end Value

theorem Service.Module.ofUnit_eq (scope : Scope) (unit : FileUnit) (first second : EnumIndex) :
    Service.Module.ofUnit ⟨scope, first⟩ unit = Service.Module.ofUnit ⟨scope, second⟩ unit := rfl

theorem Output.ofUnit_alike (options : OutputOptions) {unit : FileUnit}
    (alike : ∀ m ∈ unit.allMessages, MessageAlike first second m) :
    Output.ofUnit options first unit = Output.ofUnit options second unit := by
  have values : valueContent options first unit = valueContent options second unit := by
    rw [valueContent, valueContent, Value.Module.ofUnit_alike _ alike]
  have services : serviceContent options first unit = serviceContent options second unit := by
    rw [serviceContent, serviceContent, Service.Module.ofUnit_eq _ unit first second]
  rw [Output.ofUnit, Output.ofUnit, values, services]

end ProtoBindings
