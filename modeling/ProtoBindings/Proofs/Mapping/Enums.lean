import ProtoBindings.Mapping.Basic
import ProtoBindings.Proofs.Resolver.Order
import ProtoBindings.Proofs.Resolver.Unit

namespace ProtoBindings

open Mapping (EnumIndex)
open Resolver (After Distinct fileSymbols)
open Schema (EnumType FileUnit)

theorem find_reverse_flatMap {α β : Type} {p : β → Bool} {f : α → List β} {xs : List α} {x : α}
    (member : x ∈ xs) (only : ∀ y ∈ xs, ∀ b ∈ f y, p b = true → y = x) :
    (xs.flatMap f).reverse.find? p = (f x).reverse.find? p := by
  induction xs with
  | nil => cases member
  | cons y ys ih =>
    rw [List.flatMap_cons, List.reverse_append, List.find?_append]
    by_cases later : x ∈ ys
    · rw [ih later fun z found => only z (List.mem_cons_of_mem _ found)]
      by_cases same : y = x
      · rw [same, Option.or_self]
      · have absent : (f y).reverse.find? p = none := by
          refine List.find?_eq_none.mpr fun b found holds => same ?_
          exact only y List.mem_cons_self b (List.mem_reverse.mp found) holds
        rw [absent, Option.or_none]
    · obtain rfl : x = y := (List.mem_cons.mp member).resolve_right later
      have absent : (ys.flatMap f).reverse.find? p = none := by
        refine List.find?_eq_none.mpr fun b found holds => later ?_
        obtain ⟨z, isMember, inside⟩ := List.mem_flatMap.mp (List.mem_reverse.mp found)
        exact only z (List.mem_cons_of_mem _ isMember) b inside holds ▸ isMember
      rw [absent, Option.none_or]

section Distinct

variable {fs gs : List Descriptor.File} {resolver first second : Resolver} (distinct : Distinct fs)
  {file : Descriptor.File} {s : Resolver.Symbol} (declared : s ∈ fileSymbols file)
include distinct declared

theorem Resolver.Distinct.enum_unit (drawn : gs ⊆ fs) (isFile : file ∈ fs)
    (state : After gs resolver) {unit : FileUnit} (isUnit : unit ∈ resolver.files) {e : EnumType}
    (member : e ∈ unit.allEnums) (same : e.fullName = s.ref.fullName) : unit.name = file.name := by
  obtain ⟨before, other, after, split, built⟩ := state.unit isUnit
  obtain ⟨s', declared', named⟩ := built.enum_symbol member
  have isOther : other ∈ fs := drawn (by simp [split])
  have sameSymbol : s' = s :=
    distinct.symbol_eq isOther isFile declared' declared (named.trans same)
  obtain ⟨path, atPath⟩ := Descriptor.File.symbol_file declared
  obtain ⟨path', atPath'⟩ := Descriptor.File.symbol_file declared'
  have sameFile : other.name = file.name := by
    rw [sameSymbol, atPath] at atPath'
    exact (congrArg (·.file) atPath').symm
  rw [built.name, sameFile]

theorem Resolver.Distinct.find_enum_eq (drawn : gs ⊆ fs) (isFile : file ∈ fs)
    (state : After gs resolver) {unit : FileUnit} (isUnit : unit ∈ resolver.files)
    (named : unit.name = file.name) :
    (EnumIndex.ofUnits resolver.files).find? s.ref.fullName =
      unit.allEnums.reverse.find? (·.fullName == s.ref.fullName) := by
  refine find_reverse_flatMap isUnit fun other isOther e member same => ?_
  have ofFile := distinct.enum_unit declared drawn isFile state isOther member (beq_iff_eq.mp same)
  exact distinct.unit_eq state state drawn drawn isOther isUnit (ofFile.trans named.symm)

theorem Resolver.Distinct.enums_agree (drawn : gs ⊆ fs) (isFile : file ∈ gs)
    (state : After fs first) (state' : After gs second) :
    (EnumIndex.ofUnits first.files).find? s.ref.fullName =
      (EnumIndex.ofUnits second.files).find? s.ref.fullName := by
  obtain ⟨unit, isUnit', found, _, named⟩ := distinct.find_eq drawn state state' isFile
  have isUnit := List.mem_of_find?_eq_some found
  rw [distinct.find_enum_eq declared (fun _ => id) (drawn isFile) state isUnit named,
    distinct.find_enum_eq declared drawn (drawn isFile) state' isUnit' named]

end Distinct

end ProtoBindings
