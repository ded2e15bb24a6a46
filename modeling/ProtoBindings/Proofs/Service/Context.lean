import ProtoBindings.Proofs.Name.Start
import ProtoBindings.Proofs.Service.Imports
import ProtoBindings.Proofs.Service.Items
import ProtoBindings.Proofs.Value.References

namespace ProtoBindings

open Code (Expr Path Shown blockPaths)
open Schema (TypeRef)
open Value (Context Item)

theorem Code.Expr.paths_generic (type : String) (parameters : List Expr) :
    (Expr.generic type parameters).paths = [type] :: parameters.flatMap (·.paths) := by
  rw [Expr.generic, Expr.paths, Arguments.paths_ofList]
  rfl

namespace Value.Context

theorem covers_callable {c : Context} {conversion : Conversion}
    (own : c.Covers [] conversion.ownPaths) : c.Covers [] conversion.callable.paths := by
  have lambda (other : Conversion) (own : c.Covers [] other.ownPaths) :
      c.Covers [] (Expr.lambda (other.apply (.name "value"))).paths := by
    refine covers_freePaths (covers_conversion (own.mono (List.nil_subset _)) ?_)
    exact reads_name List.mem_cons_self
  cases conversion with
  | call function =>
    rw [Conversion.callable]
    split
    · exact own
    · exact lambda (.call function) own
  | _ => exact lambda _ own

end Value.Context

namespace Service

def builtins : List String := ["DeprecationWarning", "ValueError"]

inductive Library : Import → String → Prop
  | module (name) : name ∈ ["grpc", "warnings"] → Library { module := name } name
  | typing (name) : name ∈ typingNames → Library (.typing name) name
  | rpc : Library .rpcSupport "_rpc"
  | metadata : Library .metadataSupport "_metadata"

/-- What a path of names can stand for: what it can in a value module, or something of the language or
    of a library that only service modules use. -/
inductive Resolves (c : Context) : Path → Prop
  | value {p} : c.Resolves p → Resolves c p
  | builtin (id) : id ∈ builtins → Resolves c [id]
  | library (line i id rest) : i ∈ c.imports → line ∈ Import.block c.imports → ImportLine line i →
      Library i id → Resolves c (id :: rest)

theorem grows_resolves : Context.Grows Resolves := by
  intro c d within p resolves
  cases resolves with
  | value resolves => exact .value (resolves.mono within)
  | builtin id isBuiltin => exact .builtin id isBuiltin
  | library line i id rest imported inBlock made isLibrary =>
    exact .library line i id rest (within.imports ▸ imported) (within.imports ▸ inBlock) made isLibrary

theorem Library.named {i : Import} {id : String} (isLibrary : Library i id) : i.Named := by
  cases isLibrary with
  | module name known => exact ⟨nofun, nofun⟩
  | typing name known =>
    refine ⟨fun empty => ?_, nofun⟩
    cases empty
    revert known
    decide
  | rpc => exact ⟨by decide, by decide⟩
  | metadata => exact ⟨by decide, by decide⟩

variable {c : Context}

theorem resolves_library {i : Import} {id : String} (isLibrary : Library i id)
    (imported : i ∈ c.imports) (rest : Path) : Resolves c (id :: rest) := by
  obtain ⟨line, inBlock, made⟩ := Import.block_line isLibrary.named imported
  exact .library line i id rest imported inBlock made isLibrary

theorem resolves_own {id : String} (defined : id ∈ c.defined) : Resolves c [id] := .value (.own id defined)

theorem resolves_covered {paths : List Path} (covered : c.Covers [] paths) :
    ∀ p ∈ paths, Resolves c p := fun p member => .value (covered.resolves p member)

section Typing

variable {type : String} {parameters : List Expr}
  (covered : ∀ e ∈ parameters, ∀ p ∈ e.paths, Resolves c p)
include covered

theorem generic_resolves (resolves : Resolves c [type]) :
    ∀ p ∈ (Expr.generic type parameters).paths, Resolves c p := by
  rw [Expr.paths_generic, List.forall_mem_cons]
  exact ⟨resolves, List.forall_mem_flatMap.mpr covered⟩

theorem typing_resolves (known : type ∈ typingNames) (imported : .typing type ∈ c.imports) :
    ∀ p ∈ (Expr.generic type parameters).paths, Resolves c p :=
  generic_resolves covered (resolves_library (.typing type known) imported [])

end Typing

section Side

structure Side.Closed (c : Context) (side : Side) : Prop where
  host : ∀ id, c.Covers [] (side.host.attribute id).paths
  type : c.Covers [] side.type.paths
  reader : c.Covers [] side.reader.paths
  writer : c.Covers [] side.writer.paths

theorem Side.of_closed {mapper : Mapper} {ref : TypeRef} {side : Side}
    (result : Side.of mapper ref = .ok side) (served : c.Serves mapper (.message ref))
    (host : side.hostImports ⊆ c.imports) (type : side.typeImports ⊆ c.imports)
    (converter : side.converterImports ⊆ c.imports) : side.Closed c := by
  rw [Side.of] at result
  split at result
  · cases result
    refine ⟨Context.covers_hostAttribute host, Context.covers_nil, Context.covers_nil, ?_⟩
    refine Context.covers_freePaths (Context.covers_call.mpr ⟨?_, List.forall_mem_nil _⟩)
    exact Context.covers_hostClass host
  · simp only [Result.bind_eq_ok, Result.pure_eq_ok] at result
    obtain ⟨reader, isReader, writer, isWriter, mapped, isMapped, rfl⟩ := result
    obtain ⟨ofReader, ofWriter⟩ := List.append_subset.mp converter
    exact ⟨Context.covers_hostAttribute host, Mapper.mapElement_covers served isMapped type,
      Context.covers_callable (Mapper.reader_covers served isReader ofReader),
      Context.covers_callable (Mapper.writer_covers served isWriter ofWriter)⟩

theorem Side.Closed.mono {side : Side} {d : Context} (closed : side.Closed c) (within : c.Within d) :
    side.Closed d := by
  have grown {paths : List Path} (covered : c.Covers [] paths) : d.Covers [] paths :=
    fun p member => (covered p member).imp_right fun resolves => resolves.mono within
  exact ⟨fun id => grown (closed.host id), grown closed.type, grown closed.reader, grown closed.writer⟩

end Side

theorem shown_of_plain {t : String} (plain : Name.StartsPlain t.toList) (rest : String) :
    Shown (t ++ rest) := by
  rw [Shown, String.toList_append]
  cases list : t.toList with
  | nil => simp [list] at plain
  | cons d ds =>
    rw [list, Name.startsPlain_cons] at plain
    exact fun isPrefix => plain (List.cons_prefix_cons.mp isPrefix).1.symm

/-- A name behind an underscore is shown if it is there and does not start with one itself. -/
theorem shown_iff_plain {t rest : String} :
    Shown ("_" ++ t ++ "_" ++ rest) ↔ Name.StartsPlain t.toList := by
  have underscore : "_".toList = ['_'] := rfl
  rw [Shown, String.toList_append, String.toList_append, String.toList_append, underscore]
  cases t.toList with
  | nil => simp
  | cons d ds => simp [eq_comm]

section Plain

variable {s : Schema.Service} {m : Schema.Method}

theorem unimplementedName_shown : Shown (unimplementedName s m) ↔ Name.StartsPlain s.name.toList := by
  rw [unimplementedName, String.append_assoc, shown_iff_plain, Name.startsPlain_snakeCase]

variable (plain : Name.StartsPlain s.name.toList)
include plain

theorem upperSnakeCase_plain : Name.StartsPlain (Name.upperSnakeCase s.name).toList := by
  have snake := Name.startsPlain_snakeCase.mpr plain
  rw [Name.upperSnakeCase]
  exact Unicode.startsPlain_upper snake

theorem methodConstant_shown : Shown (methodConstant s m) := by
  rw [methodConstant, shown_iff_plain]
  exact upperSnakeCase_plain plain

theorem serviceConstant_shown : Shown (serviceConstant s) := by
  rw [serviceConstant]
  exact shown_of_plain (upperSnakeCase_plain plain) "_NAME"

end Plain

/-- Paths that start with a local name, or resolve, inside a class too. -/
def Sound (c : Context) (locals : List String) (paths : List Path) : Prop :=
  ∀ p ∈ paths, p.startsIn locals = true ∨ Resolves c p ∧ ∀ id ∈ p, Shown id

section Sound

variable {locals : List String} {p : Path} {paths : List Path}

@[simp] theorem sound_nil : Sound c locals [] := by simp [Sound]

@[simp] theorem sound_cons : Sound c locals (p :: paths) ↔
    (p.startsIn locals = true ∨ Resolves c p ∧ ∀ id ∈ p, Shown id) ∧ Sound c locals paths := by
  simp [Sound]

@[simp] theorem sound_append {first second : List Path} :
    Sound c locals (first ++ second) ↔ Sound c locals first ∧ Sound c locals second := by
  simp [Sound, or_imp, forall_and]

theorem sound_flatMap {α : Type} {xs : List α} {f : α → List Path}
    (each : ∀ x ∈ xs, Sound c locals (f x)) : Sound c locals (xs.flatMap f) := by
  intro p member
  obtain ⟨x, isElement, member⟩ := List.mem_flatMap.mp member
  exact each x isElement p member

theorem sound_library {i : Import} {id : String} (isLibrary : Library i id) (imported : i ∈ c.imports)
    {rest : Path} (shown : ∀ other ∈ id :: rest, Shown other) : Sound c locals [id :: rest] := by
  rw [sound_cons]
  exact ⟨.inr ⟨resolves_library isLibrary imported rest, shown⟩, sound_nil⟩

theorem sound_own {id : String} (defined : id ∈ c.defined) (shown : Shown id) :
    Sound c locals [[id]] := by
  rw [sound_cons]
  exact ⟨.inr ⟨resolves_own defined, List.forall_mem_singleton.mpr shown⟩, sound_nil⟩

theorem Sound.bodyPaths {f : Code.Function} (sound : Sound c f.locals (blockPaths f.body)) :
    ∀ p ∈ f.bodyPaths, Resolves c p ∧ ∀ id ∈ p, Shown id := by
  intro p member
  obtain ⟨member, free⟩ := Code.mem_freePaths.mp member
  rcases sound p member with startsHere | resolves
  · rw [free] at startsHere
    cases startsHere
  · exact resolves

end Sound

/-- A method of which all resolves that its annotations and its body mention. -/
structure Closed (c : Context) (f : Code.Function) : Prop where
  annotations : ∀ p ∈ f.annotationPaths, Resolves c p
  body : Sound c f.locals (blockPaths f.body)

theorem ServiceClass.item_resolves {k : ServiceClass} (closed : ∀ f ∈ k.methods, Closed c f) :
    ∀ p ∈ k.item.deferred, Resolves c p := by
  have body : ∀ p ∈ k.methods.flatMap (·.bodyPaths), Resolves c p ∧ ∀ id ∈ p, Shown id := by
    intro p member
    obtain ⟨f, isMethod, member⟩ := List.mem_flatMap.mp member
    exact (closed f isMethod).body.bodyPaths p member
  rw [ServiceClass.item, Code.inClass_eq fun p member => (body p member).2]
  rw [List.forall_mem_append]
  refine ⟨List.forall_mem_flatMap.mpr fun f isMethod => (closed f isMethod).annotations, ?_⟩
  exact fun p member => (body p member).1

end Service

end ProtoBindings
