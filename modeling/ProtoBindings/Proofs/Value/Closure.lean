import ProtoBindings.Proofs.Output
import ProtoBindings.Proofs.Resolver.Grounded
import ProtoBindings.Proofs.Value.Referents

namespace ProtoBindings.Value

open Mapping (EnumIndex)
open Resolver (After Grounded Referable)
open Schema (ElementType EnumType FileUnit Message TypeRef)

def Module.IsOf (options : OutputOptions) (resolver : Resolver) (unit : FileUnit) (module : Module) :
    Prop :=
  Module.ofUnit (Output.valueMapper options (EnumIndex.ofUnits resolver.files) unit) unit = .ok module

/-- What a module starts from: its imports, and what the modules of all units define that come about. -/
def Module.context (options : OutputOptions) (resolver : Resolver) (module : Module) : Context where
  imports := module.imports
  elsewhere name id := ∃ other ∈ resolver.files,
    name = Name.valueModule other.package other.name options.packagePrefix ∧
      ∀ result, Module.IsOf options resolver other result → id ∈ result.definitions
  memberElsewhere name owner id := ∃ other ∈ resolver.files,
    name = Name.valueModule other.package other.name options.packagePrefix ∧
      ∀ result, Module.IsOf options resolver other result →
        ∃ item, lastDefinition? result.items owner = some item ∧ (owner, id) ∈ item.members

/-- The modules that come about for the units keep the members of their enums. -/
def MembersKept (options : OutputOptions) (resolver : Resolver) : Prop :=
  ∀ unit ∈ resolver.files, ∀ module, Module.IsOf options resolver unit module → module.KeepsMembers

theorem Module.IsOf.defines {options : OutputOptions} {resolver : Resolver} {unit : FileUnit}
    {module : Module} (result : Module.IsOf options resolver unit module) {m : Message}
    (isMessage : m ∈ unit.allMessages) :
    ((module.context options resolver).extend module.items).Defines m := by
  obtain ⟨_, _, built⟩ := Module.ofUnit_eq_ok result
  exact built.defines (module.body_defined _) isMessage

section Offers

variable {files : List Descriptor.File} {resolver : Resolver} {options : OutputOptions}
  {unit other : FileUnit} {module : Module} (referable : Referable files)
  (state : After files resolver) (isUnit : unit ∈ resolver.files)
  (result : Module.IsOf options resolver unit module)
include referable state isUnit result

theorem offers_of_unit (isOther : other ∈ resolver.files) {ref : TypeRef}
    (ofFile : other.name = ref.file) (ofPackage : other.package = ref.package) {id : String}
    (defined : ∀ found, Module.IsOf options resolver other found → id ∈ found.definitions) :
    ((module.context options resolver).extend module.items).Offers
      (Output.valueMapper options (EnumIndex.ofUnits resolver.files) unit).scope ref id := by
  unfold Context.Offers
  split
  · rename_i isLocal
    have sameName : ref.file = unit.name := by
      simpa [Scope.isLocal, Output.valueMapper] using isLocal
    obtain rfl := referable.unit_eq state isOther isUnit (ofFile.trans sameName)
    exact defined module result
  · refine ⟨other, isOther, ?_, defined⟩
    rw [Scope.moduleOf, ofFile, ofPackage]
    rfl

theorem offersMember_of_unit (kept : MembersKept options resolver) (isOther : other ∈ resolver.files)
    {ref : TypeRef} (ofFile : other.name = ref.file) (ofPackage : other.package = ref.package) {id : String}
    (defined : ∀ found, Module.IsOf options resolver other found →
      (ref.className, id) ∈ (found.enums.map (·.item)).flatMap (·.members)) :
    ((module.context options resolver).extend (module.enums.map (·.item))).OffersMember
      (Output.valueMapper options (EnumIndex.ofUnits resolver.files) unit).scope ref id := by
  unfold Context.OffersMember
  split
  · rename_i isLocal
    have sameName : ref.file = unit.name := by
      simpa [Scope.isLocal, Output.valueMapper] using isLocal
    obtain rfl := referable.unit_eq state isOther isUnit (ofFile.trans sameName)
    exact defined module result
  · refine ⟨other, isOther, ?_, fun found isOf => ?_⟩
    · rw [Scope.moduleOf, ofFile, ofPackage]
      rfl
    · have keeps := kept other isOther found isOf
      refine @Module.KeepsMembers.last _ _ _ keeps (List.append_nil _).symm (ref.className, id) ?_
      simp only [Module.items, Module.bodyItems, List.flatMap_append, List.mem_append]
      exact .inl (.inl (.inl (.inl (defined found isOf))))

theorem serves_of_grounded {e : ElementType} (grounded : Grounded resolver e) :
    ((module.context options resolver).extend module.items).Serves
      (Output.valueMapper options (EnumIndex.ofUnits resolver.files) unit) e := by
  intro ref named _
  cases grounded with
  | scalar type => cases named
  | message other m isOther isMessage ofFile ofPackage =>
    cases named
    have offers {id : String} := @offers_of_unit _ _ _ _ _ _ referable state isUnit result isOther m.ref
      ofFile ofPackage id
    exact ⟨offers fun _ isOf => (isOf.defines isMessage).className,
      offers fun _ isOf => (isOf.defines isMessage).reader,
      offers fun _ isOf => (isOf.defines isMessage).writer⟩
  | enum other e isOther isEnum ofFile ofPackage _ =>
    cases named
    have offers {id : String} := @offers_of_unit _ _ _ _ _ _ referable state isUnit result isOther e.ref
      ofFile ofPackage id
    refine ⟨offers fun found isOf => ?_, offers fun found isOf => ?_, offers fun found isOf => ?_⟩
    all_goals obtain ⟨_, _, built⟩ := Module.ofUnit_eq_ok isOf
    · exact found.body_definitions (built.enum_class isEnum)
    · exact found.body_definitions (Module.defines_function (built.enum_functions isEnum).1)
    · exact found.body_definitions (Module.defines_function (built.enum_functions isEnum).2)

theorem servesDefault_of_grounded (kept : MembersKept options resolver) {e : ElementType}
    (grounded : Grounded resolver e) :
    ((module.context options resolver).extend (module.enums.map (·.item))).ServesDefault
      (Output.valueMapper options (EnumIndex.ofUnits resolver.files) unit) e := by
  intro ref first same _ found
  subst same
  cases grounded with
  | enum other e isOther isEnum ofFile ofPackage unique =>
    refine offersMember_of_unit referable state isUnit result kept isOther ofFile ofPackage
      fun found' isOf => ?_
    obtain ⟨_, _, built⟩ := Module.ofUnit_eq_ok isOf
    have takes := (kept other isOther found' isOf).takes (enumClass e)
      (built.enums ▸ List.mem_map_of_mem isEnum)
    rw [Mapper.firstValue] at found
    split at found
    · rename_i value isFirst
      obtain ⟨indexed, isIndexed, isHead⟩ := Option.bind_eq_some_iff.mp isFirst
      obtain rfl := unique indexed isIndexed
      cases found
      obtain ⟨member, inClass, named⟩ := value_mem (List.mem_of_head? isHead)
      rw [← named]
      exact built.enum_members isEnum takes member inClass
    · cases found

end Offers

def gallery : List Descriptor.File :=
  [{ name := "art/dot.proto"
     package := "art"
     messages := [{ name := "Dot", fields := [{ name := "size", number := 1, type := .scalar .int32 }] }]
     enums := [{ name := "Shade", values := [⟨"LIGHT", 0⟩, ⟨"DARK", 1⟩] }] },
   { name := "art/picture.proto"
     package := "art.v1"
     dependencies := ["art/dot.proto"]
     messages := [{
       name := "Picture"
       fields := [
         { name := "shade", number := 1, type := .enum, typeName := ".art.Shade" },
         { name := "dots", number := 2, type := .message, label := .repeated,
           typeName := ".art.v1.Picture.DotsEntry" },
         { name := "single", number := 3, type := .message, typeName := ".art.Dot", oneofIndex := some 0 },
         { name := "title", number := 4, type := .scalar .string, oneofIndex := some 0 }]
       oneofs := ["subject"]
       messages := [{
         name := "DotsEntry"
         fields := [
           { name := "key", number := 1, type := .scalar .string },
           { name := "value", number := 2, type := .message, typeName := ".art.Dot" }]
         isMapEntry := true }] }] }]

theorem gallery_referable : Referable gallery where
  fileNames := by decide +kernel
  enumNames := by decide +kernel
  entries := by
    have each : ∀ file ∈ gallery, ∀ n ∈ file.nodes, n.inEntry = false → ∀ field ∈ n.message.fields,
        Resolver.UsesEntries gallery n field := by decide +kernel
    exact fun file isFile n isNode outside field isField _ => each file isFile n isNode outside field isField

def modulesAll (files : List Descriptor.File) (test : Module → Bool) : Bool :=
  (resolve files).toOption.all fun resolver => resolver.files.all fun unit =>
    (Module.ofUnit (Output.valueMapper {} (EnumIndex.ofUnits resolver.files) unit) unit).toOption.all test

theorem modulesAll_apply {files : List Descriptor.File} {test : Module → Bool}
    (all : modulesAll files test = true) {resolver : Resolver} (resolved : resolve files = .ok resolver)
    {unit : FileUnit} (isUnit : unit ∈ resolver.files) {module : Module}
    (result : Module.IsOf {} resolver unit module) : test module = true := by
  unfold Module.IsOf at result
  rw [modulesAll, resolved] at all
  have ofUnit := List.all_eq_true.mp all unit isUnit
  rwa [result] at ofUnit

theorem exists_of_not_modulesAll {files : List Descriptor.File} {test : Module → Bool}
    (some : modulesAll files test = false) : ∃ resolver, resolve files = .ok resolver ∧
      ∃ unit ∈ resolver.files, ∃ module, Module.IsOf {} resolver unit module ∧ test module = false := by
  unfold modulesAll at some
  cases resolved : resolve files with
  | error e =>
    rw [resolved] at some
    cases some
  | ok resolver =>
    rw [resolved] at some
    obtain ⟨unit, isUnit, some⟩ := List.all_eq_false.mp some
    cases result : Module.ofUnit
        (Output.valueMapper {} (EnumIndex.ofUnits resolver.files) unit) unit with
    | error e =>
      rw [result] at some
      exact absurd rfl some
    | ok module =>
      rw [result] at some
      exact ⟨resolver, rfl, unit, isUnit, module, result, Bool.eq_false_iff.mpr some⟩

theorem gallery_clear : modulesAll gallery (decide ·.Clear) = true := by decide +kernel

def Dangling (files : List Descriptor.File) : Prop :=
  ∃ resolver, resolve files = .ok resolver ∧ ∃ unit ∈ resolver.files, ∃ module,
    Module.IsOf {} resolver unit module ∧ ¬module.SelfContained (module.context {} resolver)

theorem dangling_of_loses {files : List Descriptor.File}
    (loses : modulesAll files (fun module => !module.losesFrom [] module.items) = false) :
    Dangling files := by
  obtain ⟨resolver, resolved, unit, isUnit, module, result, test⟩ := exists_of_not_modulesAll loses
  refine ⟨resolver, resolved, unit, isUnit, module, result, ?_⟩
  exact Module.not_selfContained_of_loses rfl (by simpa using test)

/-- Entries, and what is declared in them, are the types of repeated fields only. -/
def EntriesRepeated (files : List Descriptor.File) : Prop :=
  ∀ file ∈ files, ∀ n ∈ file.nodes, ∀ field ∈ n.message.fields, ∀ g ∈ files, ∀ t ∈ g.nodes,
    t.isHidden = true → (t.symbol g).ref.fullName = Resolver.typeNameOf field →
    field.label = .repeated

instance (files : List Descriptor.File) : Decidable (EntriesRepeated files) := by
  unfold EntriesRepeated
  infer_instance

def twoColors : List Descriptor.File :=
  [{ name := "pen.proto"
     messages := [{
       name := "Pen"
       fields := [{ name := "ink", number := 1, type := .enum, typeName := ".Color" }] }]
     enums := [{ name := "Color", values := [⟨"RED", 0⟩] }] },
   { name := "paint.proto"
     enums := [{ name := "Color", values := [⟨"BLUE", 0⟩] }] }]

def entryMessage (name : String) (value : Descriptor.Field) (messages : List Descriptor.Message) :
    Descriptor.Message where
  name := name
  fields := [{ name := "key", number := 1, type := .scalar .string }, value]
  messages := messages
  isMapEntry := true

def countField : Descriptor.Field := { name := "value", number := 2, type := .scalar .int32 }

def shelf (typeName : String) (oneofs : List String) (messages : List Descriptor.Message) :
    List Descriptor.File :=
  [{ name := "shelf.proto"
     messages := [{
       name := "Shelf"
       fields := [{ name := "slots", number := 1, type := .message, label := .repeated, typeName,
                    oneofIndex := oneofs.head?.map fun _ => 0 }]
       oneofs
       messages }] }]

def song (enum : Descriptor.Enum) (first : String) (messages : List Descriptor.Message) :
    List Descriptor.File :=
  [{ name := "song.proto"
     messages := { name := "Song", fields := [
       { name := first, number := 1, type := .scalar .int32 },
       { name := "feeling", number := 2, type := .enum, typeName := "." ++ enum.name }] } :: messages
     enums := [enum] }]

/-- Files with names of their own, in which entries are used for repeated fields only, and yet something
    is referred to that is not there. -/
structure Overlooked (files : List Descriptor.File) : Prop where
  fileNames : (files.map (·.name)).Nodup
  entries : EntriesRepeated files
  dangling : Dangling files

end ProtoBindings.Value
