import ProtoBindings.Proofs.Output
import ProtoBindings.Proofs.Service.Imports
import ProtoBindings.Resolver.Basic

namespace ProtoBindings

namespace Import

open Name (Apart hostModule moduleAlias valueModule)
open Schema (FileUnit)

def fixedImports : List Import :=
  ["dataclasses", "datetime", "enum", "grpc", "warnings"].map (fun module => Import.mk module none none) ++
    ["AsyncIterable", "AsyncIterator", "Awaitable", "Callable", "Dict", "Iterable", "List", "Optional",
      "Union"].map .typing ++
    [.wellKnownSupport, .parserSupport, .metadataSupport, .rpcSupport]

inductive Known (packagePrefix : Option String) : Import → Prop
  | fixed {i} : i ∈ fixedImports → Known packagePrefix i
  | host (file) : Known packagePrefix (.ofModule (hostModule file))
  | value (package file) : Known packagePrefix (.ofModule (valueModule package file packagePrefix))

/-- Imports of two host modules or of two value modules whose paths differ in nothing but underscores in
    place of dots. -/
inductive Clash (packagePrefix : Option String) : Import → Import → Prop
  | hosts (f g) :
      Text.replaceChar '.' '_' (hostModule f) = Text.replaceChar '.' '_' (hostModule g) →
      Clash packagePrefix (.ofModule (hostModule f)) (.ofModule (hostModule g))
  | values (p f q g) :
      Text.replaceChar '.' '_' (valueModule p f packagePrefix) =
        Text.replaceChar '.' '_' (valueModule q g packagePrefix) →
      Clash packagePrefix (.ofModule (valueModule p f packagePrefix))
        (.ofModule (valueModule q g packagePrefix))

section Bound

open Value (bound_host bound_ofModule bound_value)

theorem moduleAlias_inj {m n : String} : moduleAlias m = moduleAlias n ↔
    Text.replaceChar '.' '_' m = Text.replaceChar '.' '_' n := by
  rw [moduleAlias, moduleAlias, String.append_right_inj]

theorem replaceChar_congr {old new : Char} {s t : String}
    (same : s.toList.map (fun c => if c = old then new else c) =
      t.toList.map fun c => if c = old then new else c) :
    Text.replaceChar old new s = Text.replaceChar old new t := by
  rw [← String.toList_inj, Text.replaceChar, Text.replaceChar, String.toList_map, String.toList_map,
    same]

theorem bound_ofModule_inj {m n : String} : (ofModule m).bound = (ofModule n).bound ↔
    Text.replaceChar '.' '_' m = Text.replaceChar '.' '_' n := by
  rw [bound_ofModule, bound_ofModule, moduleAlias_inj]

theorem fixed_distinct : ∀ i ∈ fixedImports, ∀ j ∈ fixedImports, i.bound = j.bound → i = j := by
  decide +kernel

theorem fixed_apart : ∀ i ∈ fixedImports, ∀ ending ∈ ["_pb2", "_idiom"], Apart i.bound ending := by
  decide +kernel

variable {packagePrefix : Option String} {i j : Import}

theorem fixed_ne_ending (fixed : i ∈ fixedImports) {ending : String}
    (isEnding : ending ∈ ["_pb2", "_idiom"]) (start : String) : i.bound ≠ start ++ ending := by
  have apart := (fixed_apart i fixed ending isEnding).append_ne "" start
  rwa [String.empty_append] at apart

theorem clash_of_bound (ofFirst : Known packagePrefix i) (ofSecond : Known packagePrefix j)
    (different : i ≠ j) (same : i.bound = j.bound) : Clash packagePrefix i j := by
  -- The kinds of modules end differently, so only imports of one kind can clash.
  have kinds : Apart "_pb2" "_idiom" := by decide
  cases ofFirst with
  | fixed isFixed =>
    cases ofSecond with
    | fixed isFixed' => exact absurd (fixed_distinct i isFixed j isFixed' same) different
    | host g =>
      obtain ⟨start, isBound⟩ := bound_host g
      exact absurd (same.trans isBound) (fixed_ne_ending isFixed (by decide) start)
    | value q g =>
      obtain ⟨start, isBound⟩ := bound_value q g packagePrefix
      exact absurd (same.trans isBound) (fixed_ne_ending isFixed (by decide) start)
  | host f =>
    obtain ⟨start, isBound⟩ := bound_host f
    cases ofSecond with
    | fixed isFixed =>
      exact absurd (same.symm.trans isBound) (fixed_ne_ending isFixed (by decide) start)
    | host g => exact .hosts f g (bound_ofModule_inj.mp same)
    | value q g =>
      obtain ⟨start', isBound'⟩ := bound_value q g packagePrefix
      rw [isBound, isBound'] at same
      exact absurd same (kinds.append_ne start start')
  | value p f =>
    obtain ⟨start, isBound⟩ := bound_value p f packagePrefix
    cases ofSecond with
    | fixed isFixed =>
      exact absurd (same.symm.trans isBound) (fixed_ne_ending isFixed (by decide) start)
    | host g =>
      obtain ⟨start', isBound'⟩ := bound_host g
      rw [isBound, isBound'] at same
      exact absurd same.symm (kinds.append_ne start' start)
    | value q g => exact .values p f q g (bound_ofModule_inj.mp same)

theorem Clash.bound_eq (clash : Clash packagePrefix i j) : i.bound = j.bound := by
  cases clash with
  | hosts f g same => exact bound_ofModule_inj.mpr same
  | values p f q g same => exact bound_ofModule_inj.mpr same

end Bound

section Known

variable {scope : Scope} {refs : List Schema.TypeRef} {i : Import}

theorem known_of_library {id : String} (isLibrary : Value.Library i id) :
    Known scope.packagePrefix i := by
  cases isLibrary with
  | standard _ known =>
    have listed : ∀ module ∈ ["dataclasses", "datetime", "enum"],
        ({ module } : Import) ∈ fixedImports := by decide
    exact .fixed (listed _ known)
  | typing _ known =>
    have listed : ∀ name ∈ ["Dict", "List", "Optional", "Union"], Import.typing name ∈ fixedImports := by
      decide
    exact .fixed (listed _ known)
  | wellKnown => exact .fixed (by decide)
  | parsers => exact .fixed (by decide)
  | host file => exact .host file

theorem known_of_value (importable : Value.Importable scope refs i) : Known scope.packagePrefix i := by
  cases importable with
  | library isLibrary => exact known_of_library isLibrary
  | generated ref _ _ _ => exact .value ref.package ref.file

theorem known_of_service (importable : Service.Importable scope refs i) :
    Known scope.packagePrefix i := by
  cases importable with
  | value importable => exact known_of_value importable
  | library _ known =>
    have listed : ∀ module ∈ ["grpc", "warnings"], ({ module } : Import) ∈ fixedImports := by decide
    exact .fixed (listed _ known)
  | typing _ known =>
    have listed : ∀ name ∈ Service.typingNames, Import.typing name ∈ fixedImports := by decide
    exact .fixed (listed _ known)
  | metadata => exact .fixed (by decide)
  | rpc => exact .fixed (by decide)

end Known

inductive OfUnit (mapper : Mapper) (unit : FileUnit) : List Import → Prop
  | value {module} : Value.Module.ofUnit mapper unit = .ok module → OfUnit mapper unit module.imports
  | service {module} : Service.Module.ofUnit mapper unit = .ok module →
      OfUnit mapper unit module.imports

theorem OfUnit.known {mapper : Mapper} {unit : FileUnit} {imports : List Import}
    (made : OfUnit mapper unit imports) : ∀ i ∈ imports, Known mapper.scope.packagePrefix i := by
  intro i member
  cases made with
  | value result => exact known_of_value (Value.Module.imports_known result i member)
  | service result => exact known_of_service (Service.Module.imports_known result i member)

theorem Known.named {packagePrefix : Option String} {i : Import} (known : Known packagePrefix i) :
    i.Named := by
  have fixed : ∀ i ∈ fixedImports, i.name ≠ some "" ∧ i.localName ≠ some "" := by decide
  cases known with
  | fixed isFixed => exact ⟨(fixed i isFixed).1, (fixed i isFixed).2⟩
  | host file => exact Value.named_ofModule _
  | value package file => exact Value.named_ofModule _

/-- Each import of a value module or a service module has its line. Two of them that are not the same
    bind one name exactly if they are of host modules, or of value modules, that have one alias. -/
theorem bound_eq_iff_clash {mapper : Mapper} {unit : FileUnit} {imports : List Import}
    (made : OfUnit mapper unit imports) :
    (∀ i ∈ imports, ∃ line ∈ block imports, ImportLine line i) ∧
    ∀ i ∈ imports, ∀ j ∈ imports, i ≠ j →
      (i.bound = j.bound ↔ Clash mapper.scope.packagePrefix i j) := by
  have known := made.known
  refine ⟨fun i member => block_line (known i member).named member, ?_⟩
  intro i ofFirst j ofSecond different
  exact ⟨clash_of_bound (known i ofFirst) (known j ofSecond) different, Clash.bound_eq⟩

section Examples

def left : Descriptor.File where
  name := "a/b.proto"
  package := "a"
  messages := [{ name := "Left" }]

def right : Descriptor.File where
  name := "a_b.proto"
  messages := [{ name := "Right" }]

def pair : Descriptor.File where
  name := "pair.proto"
  dependencies := ["a/b.proto", "a_b.proto"]
  messages := [{ name := "Pair", fields := [
    { name := "left", number := 1, type := .message, typeName := ".a.Left" },
    { name := "right", number := 2, type := .message, typeName := ".Right" }] }]
  services := [{ name := "Swap", methods := [
    { name := "Turn", input := ".a.Left", output := ".Right" }] }]

theorem pair_resolves : ∃ resolver, resolve [left, right, pair] = .ok resolver ∧
    ∃ unit ∈ resolver.files, unit.name = "pair.proto" ∧
      (∃ module, Value.Module.ofUnit (Output.valueMapper {} (.ofUnits resolver.files) unit) unit =
          .ok module ∧
        ofModule "a.b_idiom" ∈ module.imports ∧ ofModule "a_b_idiom" ∈ module.imports) ∧
      ∃ module, Service.Module.ofUnit (Output.serviceMapper {} (.ofUnits resolver.files) unit) unit =
          .ok module ∧
        ofModule "a.b_pb2" ∈ module.imports ∧ ofModule "a_b_pb2" ∈ module.imports := by
  decide +kernel

theorem pair_bound_eq_iff_clash : ∃ mapper unit imports, OfUnit mapper unit imports ∧
    (∀ i ∈ imports, ∃ line ∈ block imports, ImportLine line i) ∧
    ∀ i ∈ imports, ∀ j ∈ imports, i ≠ j → (i.bound = j.bound ↔ Clash none i j) := by
  obtain ⟨resolver, _, unit, _, _, ⟨module, result, _⟩, _⟩ := pair_resolves
  exact ⟨_, unit, module.imports, .value result, bound_eq_iff_clash (.value result)⟩

theorem pair_clashes : ([left, right, pair].map (·.name)).Nodup ∧
    ∃ resolver, resolve [left, right, pair] = .ok resolver ∧
      ∃ unit ∈ resolver.files, unit.name = "pair.proto" ∧
        (∃ module, Value.Module.ofUnit (Output.valueMapper {} (.ofUnits resolver.files) unit) unit =
            .ok module ∧
          ∃ i ∈ module.imports, ∃ j ∈ module.imports, i.module ≠ j.module ∧ i.bound = j.bound) ∧
        ∃ module, Service.Module.ofUnit (Output.serviceMapper {} (.ofUnits resolver.files) unit) unit =
            .ok module ∧
          ∃ i ∈ module.imports, ∃ j ∈ module.imports, i.module ≠ j.module ∧ i.bound = j.bound := by
  obtain ⟨resolver, resolved, unit, isUnit, named, ⟨values, isValues, first, second⟩, services,
    isServices, host, otherHost⟩ := pair_resolves
  have valueAlias : (ofModule "a.b_idiom").bound = (ofModule "a_b_idiom").bound :=
    bound_ofModule_inj.mpr (replaceChar_congr (by decide))
  have hostAlias : (ofModule "a.b_pb2").bound = (ofModule "a_b_pb2").bound :=
    bound_ofModule_inj.mpr (replaceChar_congr (by decide))
  refine ⟨by decide, resolver, resolved, unit, isUnit, named, ⟨values, isValues, ?_⟩, services,
    isServices, ?_⟩
  · exact ⟨_, first, _, second, by decide, valueAlias⟩
  · exact ⟨_, host, _, otherHost, by decide, hostAlias⟩

end Examples

end Import

end ProtoBindings
