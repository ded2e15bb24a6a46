import ProtoBindings.Plugin.Run
import ProtoBindings.Proofs.Mapping.Defaults
import ProtoBindings.Proofs.Mapping.Enums

namespace ProtoBindings.Plugin

open Mapping (EnumIndex)
open Resolver (After Distinct Known)
open Schema (FileUnit)

variable {fs gs : List Descriptor.File} {first second : Resolver}

theorem alike_of_unit (distinct : Distinct fs) (drawn : gs ⊆ fs) (state : After fs first)
    (state' : After gs second) {unit : FileUnit} (isUnit : unit ∈ second.files) :
    ∀ m ∈ unit.allMessages,
      MessageAlike (EnumIndex.ofUnits first.files) (EnumIndex.ofUnits second.files) m := by
  intro m member f isField e isElement ref isEnum
  obtain ⟨before, file, after, split, built⟩ := state'.unit isUnit
  have known := built.known member isField e (List.mem_cons_of_mem _ isElement)
  rw [isEnum] at known
  generalize same : Schema.ElementType.enum ref = element at known
  cases known with
  | scalar type => cases same
  | named name s found =>
    have isRef : ref = s.ref := by
      rw [Resolver.Symbol.element] at same
      split at same
      · cases same
      · exact Schema.ElementType.enum.inj same
    obtain ⟨g, isFile, declared⟩ := Resolver.declared_of_found split found
    rw [isRef]
    exact distinct.enums_agree declared drawn isFile state state'

theorem generateFile_eq (distinct : Distinct fs) (drawn : gs ⊆ fs) (state : After fs first)
    (state' : After gs second) (config : Config) {g : Descriptor.File} (isFile : g ∈ gs) :
    generateFile config first g.name = generateFile config second g.name := by
  obtain ⟨unit, isUnit, found, found', _⟩ := distinct.find_eq drawn state state' isFile
  have alike := alike_of_unit distinct drawn state state' isUnit
  have got : first.get g.name = .ok unit := by rw [Resolver.get, found]
  have got' : second.get g.name = .ok unit := by rw [Resolver.get, found']
  rw [generateFile, generateFile, got, got']
  simp only [Except.mapError, bind, Except.bind, Output.ofUnit_alike _ alike]

theorem generateFiles_congr (config : Config) {names : List String}
    (same : ∀ name ∈ names, generateFile config first name = generateFile config second name) :
    generateFiles config first names = generateFiles config second names := by
  induction names with
  | nil => rfl
  | cons name rest ih =>
    rw [generateFiles, generateFiles, same name List.mem_cons_self,
      ih fun other member => same other (List.mem_cons_of_mem _ member)]

/-- If some of the files resolve in another order or without the rest, they have the units that they
    have among all files, and a request for them has the same outcome. -/
theorem generate_eq_of_subset (distinct : Distinct fs) (drawn : gs ⊆ fs)
    (resolved : resolve fs = .ok first) (resolved' : resolve gs = .ok second) :
    (∀ g ∈ gs, ∃ unit, first.find? g.name = some unit ∧ second.find? g.name = some unit) ∧
    ∀ parameter environment names, (∀ name ∈ names, name ∈ gs.map (·.name)) →
      (generate environment ⟨names, parameter, fs⟩).level =
        (generate environment ⟨names, parameter, gs⟩).level ∧
      (generate environment ⟨names, parameter, fs⟩).result =
        (generate environment ⟨names, parameter, gs⟩).result := by
  have state := Resolver.after_resolve resolved
  have state' := Resolver.after_resolve resolved'
  refine ⟨fun g isFile => ?_, fun parameter environment names fromFiles => ?_⟩
  · obtain ⟨unit, _, found, found', _⟩ := distinct.find_eq drawn state state' isFile
    exact ⟨unit, found, found'⟩
  · cases configured : Config.ofParameter parameter environment with
    | error e => simp [generate, configured]
    | ok config =>
      have same : generateFiles config first names = generateFiles config second names := by
        refine generateFiles_congr config fun name member => ?_
        obtain ⟨g, isFile, rfl⟩ := List.mem_map.mp (fromFiles name member)
        exact generateFile_eq distinct drawn state state' config isFile
      have all : (Resolver.addAll {} fs).2 = .ok first := resolved
      have some : (Resolver.addAll {} gs).2 = .ok second := resolved'
      simp [generate, configured, all, some, same]

def palette : Descriptor.File where
  name := "palette.proto"
  package := "art"
  enums := [{ name := "Color", values := [{ name := "RED" }, { name := "BLUE", number := 1 }] }]

def shape : Descriptor.File where
  name := "shape.proto"
  package := "art"
  dependencies := ["palette.proto"]
  messages := [{ name := "Circle", fields := [
    { name := "fill", number := 1, type := .enum, typeName := ".art.Color" }] }]

def clock : Descriptor.File where
  name := "clock.proto"
  package := "time"
  enums := [{ name := "Tick", values := [{ name := "LOW" }] }]

theorem shapes_distinct : Distinct [clock, palette, shape] where
  fileNames := by decide
  fullNames := by decide

theorem shape_without_clock : ∃ first second,
    resolve [clock, palette, shape] = .ok first ∧ resolve [palette, shape] = .ok second ∧
    Distinct [clock, palette, shape] ∧
    (∃ unit, first.find? "shape.proto" = some unit ∧ second.find? "shape.proto" = some unit) ∧
    (generate none ⟨["shape.proto"], "", [clock, palette, shape]⟩).result =
      (generate none ⟨["shape.proto"], "", [palette, shape]⟩).result := by
  have succeeds : (resolve [clock, palette, shape]).toOption.isSome := by decide +kernel
  have succeeds' : (resolve [palette, shape]).toOption.isSome := by decide +kernel
  obtain ⟨first, resolved⟩ := Result.exists_of_isSome succeeds
  obtain ⟨second, resolved'⟩ := Result.exists_of_isSome succeeds'
  have drawn : [palette, shape] ⊆ [clock, palette, shape] := List.subset_cons_self _ _
  obtain ⟨units, outcome⟩ := generate_eq_of_subset shapes_distinct drawn resolved resolved'
  exact ⟨first, second, resolved, resolved', shapes_distinct, units shape (by simp),
    (outcome "" none ["shape.proto"] (by decide)).2⟩

end ProtoBindings.Plugin
