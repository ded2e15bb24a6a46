import Mathlib.Logic.Relation
import ProtoBindings.Proofs.Value.Closure
import ProtoBindings.Proofs.Value.Imports

namespace ProtoBindings.Value

open Resolver (After after_resolve file_eq_of_name refAt split_unique)
open Schema (FileUnit TypeRef)

def Before (files : List Descriptor.File) (g f : Descriptor.File) : Prop :=
  ∃ earlier later, files = earlier ++ f :: later ∧ g ∈ earlier

/-- The module of `f` has an import that a field of a type declared in `g` calls for. -/
def RefersTo (options : OutputOptions) (files : List Descriptor.File) (resolver : Resolver)
    (f g : Descriptor.File) : Prop :=
  f ∈ files ∧ g ∈ files ∧ g ≠ f ∧ ∃ unit ∈ resolver.files, unit.name = f.name ∧
    ∃ module, Module.IsOf options resolver unit module ∧ ∃ ref ∈ unit.fieldRefs, ref.file = g.name ∧
      .ofModule (Name.valueModule ref.package ref.file options.packagePrefix) ∈ module.imports

variable {files : List Descriptor.File} {f g h : Descriptor.File}

theorem Before.irrefl (distinct : (files.map (·.name)).Nodup) : ¬Before files f f := by
  rintro ⟨earlier, later, rfl, member⟩
  have unique : (earlier ++ f :: later).Nodup := List.Nodup.of_map _ distinct
  exact (List.nodup_append.mp unique).2.2 f member f List.mem_cons_self rfl

theorem Before.trans (distinct : (files.map (·.name)).Nodup) (first : Before files h g)
    (second : Before files g f) : Before files h f := by
  obtain ⟨before, after, split, isBefore⟩ := first
  obtain ⟨earlier, later, split', isEarlier⟩ := second
  obtain ⟨start, rest, rfl⟩ := List.append_of_mem isEarlier
  have whole : files = start ++ g :: (rest ++ f :: later) := by simp [split']
  obtain ⟨rfl, _⟩ := split_unique distinct split whole
  exact ⟨_, later, split', List.mem_append_left _ isBefore⟩

section Resolved

variable {resolver : Resolver} {options : OutputOptions} {unit : FileUnit}
  (distinct : (files.map (·.name)).Nodup) (resolved : resolve files = .ok resolver)
include distinct resolved

theorem ref_declared_before (isFile : f ∈ files) (isUnit : unit ∈ resolver.files)
    (named : unit.name = f.name) {ref : TypeRef} (isRef : ref ∈ unit.refs)
    (outside : ref.file ≠ f.name) :
    ∃ g, Before files g f ∧ ∃ path d, g.Declares path d ∧ ref = refAt g path := by
  obtain ⟨before, file, after, split, built⟩ := (after_resolve resolved).unit isUnit
  obtain rfl : file = f :=
    file_eq_of_name distinct (by simp [split]) isFile (built.name.symm.trans named)
  obtain ⟨g, isRead, path, d, declares, rfl⟩ := built.ref_declared ref isRef
  rcases List.mem_append.mp isRead with isEarlier | isOwn
  · exact ⟨g, ⟨before, after, split, isEarlier⟩, path, d, declares, rfl⟩
  · obtain rfl := List.mem_singleton.mp isOwn
    exact absurd rfl outside

theorem import_before (isFile : f ∈ files) (isUnit : unit ∈ resolver.files)
    (named : unit.name = f.name) {module : Module} (result : Module.IsOf options resolver unit module)
    {i : Import} (isImport : i ∈ module.imports) :
    (∃ id, Library i id) ∨ ∃ g, Before files g f ∧ ∃ path d, g.Declares path d ∧
      refAt g path ∈ unit.fieldRefs ∧
      i = .ofModule (Name.valueModule g.package g.name options.packagePrefix) := by
  cases Module.imports_known result i isImport with
  | library isLibrary => exact .inl ⟨_, isLibrary⟩
  | generated ref isRef _ isForeign =>
    have outside : ref.file ≠ f.name := by
      simpa [Scope.isLocal, Output.valueMapper, named] using isForeign
    obtain ⟨g, isBefore, path, d, declares, rfl⟩ := ref_declared_before distinct resolved isFile isUnit
      named (List.mem_append_left _ isRef) outside
    exact .inr ⟨g, isBefore, path, d, declares, isRef, rfl⟩

theorem RefersTo.before (refers : RefersTo options files resolver f g) : Before files g f := by
  obtain ⟨isFile, isOther, different, unit, isUnit, named, _, _, ref, isRef, ofFile, _⟩ := refers
  have outside : ref.file ≠ f.name := fun same =>
    different (file_eq_of_name distinct isOther isFile (ofFile.symm.trans same))
  obtain ⟨h, isBefore, path, d, _, rfl⟩ := ref_declared_before distinct resolved isFile isUnit named
    (List.mem_append_left _ isRef) outside
  obtain ⟨earlier, later, split, isEarlier⟩ := isBefore
  obtain rfl : h = g := file_eq_of_name distinct (by simp [split, isEarlier]) isOther ofFile
  exact ⟨earlier, later, split, isEarlier⟩

theorem chain_before (chain : Relation.TransGen (RefersTo options files resolver) f g) :
    Before files g f := by
  induction chain with
  | single refers => exact refers.before distinct resolved
  | tail _ refers ih => exact (refers.before distinct resolved).trans distinct ih

end Resolved

/-- Each import of a module that a type of another file calls for leads to an earlier file, so no chain
    of such imports comes back to the file where it starts. -/
theorem imports_acyclic (distinct : (files.map (·.name)).Nodup) {resolver : Resolver}
    (resolved : resolve files = .ok resolver) (options : OutputOptions) :
    (∀ f ∈ files, ∀ unit ∈ resolver.files, unit.name = f.name → ∀ module,
      Module.IsOf options resolver unit module → ∀ i ∈ module.imports,
        (∃ id, Library i id) ∨ ∃ g, Before files g f ∧ ∃ path d, g.Declares path d ∧
          refAt g path ∈ unit.fieldRefs ∧
          i = .ofModule (Name.valueModule g.package g.name options.packagePrefix)) ∧
    (∀ f g, RefersTo options files resolver f g → Before files g f) ∧
    ∀ f, ¬Relation.TransGen (RefersTo options files resolver) f f := by
  refine ⟨?_, fun f g refers => refers.before distinct resolved, ?_⟩
  · intro f isFile unit isUnit named module result i isImport
    exact import_before distinct resolved isFile isUnit named result isImport
  · intro f circle
    exact Before.irrefl distinct (chain_before distinct resolved circle)

def ink : Descriptor.File where
  name := "ink.proto"
  package := "press"
  enums := [{ name := "Color", values := [{ name := "BLACK" }] }]

def page : Descriptor.File where
  name := "page.proto"
  messages := [{ name := "Page", fields := [
    { name := "ink", number := 1, type := .enum, typeName := ".press.Color" }] }]

theorem page_acyclic : ∃ resolver, ([ink, page].map (·.name)).Nodup ∧
    resolve [ink, page] = .ok resolver ∧ page.dependencies = [] ∧
    RefersTo {} [ink, page] resolver page ink ∧ Before [ink, page] ink page ∧
    ¬Relation.TransGen (RefersTo {} [ink, page] resolver) page page := by
  have made : ∃ resolver, resolve [ink, page] = .ok resolver ∧ ∃ unit ∈ resolver.files,
      unit.name = "page.proto" ∧ ∃ module,
        Module.ofUnit (Output.valueMapper {} (Mapping.EnumIndex.ofUnits resolver.files) unit) unit =
          .ok module ∧
        ∃ ref ∈ unit.fieldRefs, ref.file = "ink.proto" ∧
          Import.ofModule (Name.valueModule ref.package ref.file none) ∈ module.imports := by
    decide +kernel
  have distinct : ([ink, page].map (·.name)).Nodup := by decide
  obtain ⟨resolver, resolved, unit, isUnit, named, module, result, ref, isRef, ofFile, isImport⟩ := made
  have different : ink ≠ page := fun same => absurd (congrArg (·.name) same) (by decide)
  have refers : RefersTo {} [ink, page] resolver page ink :=
    ⟨by simp, by simp, different, unit, isUnit, named, module, result, ref, isRef, ofFile, isImport⟩
  obtain ⟨_, before, acyclic⟩ := imports_acyclic distinct resolved {}
  exact ⟨resolver, distinct, resolved, rfl, refers, before page ink refers, acyclic page⟩

end ProtoBindings.Value
