import ProtoBindings.Proofs.Service.Private
import ProtoBindings.Proofs.Value.Closure

namespace ProtoBindings.Service

open Mapping (EnumIndex)
open Name (StartsPlain)
open Resolver (After Grounded HasClass)
open Schema (FileUnit TypeRef)
open Value (Context)

def Module.IsOf (options : OutputOptions) (resolver : Resolver) (unit : FileUnit) (module : Module) :
    Prop :=
  Module.ofUnit (Output.serviceMapper options (EnumIndex.ofUnits resolver.files) unit) unit = .ok module

def Module.context (options : OutputOptions) (resolver : Resolver) (module : Module) : Context where
  imports := module.imports
  elsewhere name id := ∃ other ∈ resolver.files,
    name = Name.valueModule other.package other.name options.packagePrefix ∧
      ∀ result, Value.Module.IsOf options resolver other result → id ∈ result.definitions
  memberElsewhere _ _ _ := False

theorem serves_of_grounded {resolver : Resolver} {unit : FileUnit} {options : OutputOptions}
    {module : Module} {ref : TypeRef} (grounded : Grounded resolver (.message ref)) :
    (module.context options resolver).Serves
      (Output.serviceMapper options (EnumIndex.ofUnits resolver.files) unit) (.message ref) := by
  rintro _ ⟨⟩ _
  cases grounded with
  | message other m isOther isMessage ofFile ofPackage =>
    have offers {id : String}
        (defined : ∀ result, Value.Module.IsOf options resolver other result → id ∈ result.definitions) :
        (module.context options resolver).Offers
          (Output.serviceMapper options (EnumIndex.ofUnits resolver.files) unit).scope m.ref id := by
      rw [Context.Offers, if_neg nofun]
      refine ⟨other, isOther, ?_, defined⟩
      rw [Scope.moduleOf, ofFile, ofPackage]
      rfl
    exact ⟨offers fun _ isOf => (isOf.defines isMessage).className,
      offers fun _ isOf => (isOf.defines isMessage).reader,
      offers fun _ isOf => (isOf.defines isMessage).writer⟩

section Examples

def emptyFile : Descriptor.File where
  name := "google/protobuf/empty.proto"
  package := "google.protobuf"
  messages := [{ name := "Empty" }]

def ledger : List Descriptor.File :=
  [emptyFile,
   { name := "bank/entry.proto", package := "bank", messages := [{ name := "Entry" }] },
   { name := "bank/ledger.proto"
     package := "bank.v1"
     dependencies := ["google/protobuf/empty.proto", "bank/entry.proto"]
     messages := [{ name := "Page" }]
     services := [{ name := "Ledger", methods := [
       { name := "Add", input := ".bank.Entry", output := ".google.protobuf.Empty" },
       { name := "AddAll", input := ".bank.Entry", output := ".bank.v1.Page", clientStreaming := true },
       { name := "List", input := ".google.protobuf.Empty", output := ".bank.Entry",
         serverStreaming := true, deprecated := true },
       { name := "Follow", input := ".bank.v1.Page", output := ".bank.Entry", clientStreaming := true,
         serverStreaming := true }] }] }]

def privateService : List Descriptor.File :=
  [emptyFile,
   { name := "foo.proto"
     dependencies := ["google/protobuf/empty.proto"]
     services := [{ name := "_Foo", methods := [
       { name := "Bar", input := ".google.protobuf.Empty", output := ".google.protobuf.Empty" }] }] }]

end Examples

end ProtoBindings.Service
