import ProtoBindings.Proofs.Mapping.Defaults
import ProtoBindings.Proofs.Value.Context
import ProtoBindings.Proofs.Value.Written

namespace ProtoBindings.Value

open Code (Arguments Expr Path)
open Schema (ElementType Field TypeRef)

namespace Context

/-- Whether the module of a type defines a name: the module at hand, if the type is its own. -/
def Offers (c : Context) (scope : Scope) (ref : TypeRef) (id : String) : Prop :=
  if scope.isLocal ref then id ∈ c.defined else c.elsewhere (scope.moduleOf ref) id

def OffersMember (c : Context) (scope : Scope) (ref : TypeRef) (id : String) : Prop :=
  if scope.isLocal ref then (ref.className, id) ∈ c.members
  else c.memberElsewhere (scope.moduleOf ref) ref.className id

structure OffersType (c : Context) (scope : Scope) (ref : TypeRef) : Prop where
  className : c.Offers scope ref ref.className
  reader : c.Offers scope ref ref.readerName
  writer : c.Offers scope ref ref.writerName

def Serves (c : Context) (mapper : Mapper) (e : ElementType) : Prop :=
  ∀ ref, e.ref? = some ref → isGoogleType ref.fullName = false → c.OffersType mapper.scope ref

/-- The default of an enum is the only one that mentions the module of a type. -/
def ServesDefault (c : Context) (mapper : Mapper) (e : ElementType) : Prop :=
  ∀ ref first, e = .enum ref → isGoogleType ref.fullName = false →
    mapper.firstValue ref = .ok first → c.OffersMember mapper.scope ref (Name.escape first)

variable {c : Context} {locals : List String}

structure Reads (c : Context) (locals : List String) (e : Expr) : Prop where
  paths : c.Covers locals e.paths
  start : ∀ p, e.dotted? = some p → p.startsIn locals = true

theorem reads_name {id : String} (isLocal : id ∈ locals) : c.Reads locals (.name id) := by
  have startsHere : Path.startsIn locals [id] = true := by simpa using isLocal
  constructor
  · simp [Expr.paths, startsHere]
  · intro p dotted
    cases dotted
    exact startsHere

theorem Reads.attribute {e : Expr} (reads : c.Reads locals e) (id : String) :
    c.Reads locals (e.attribute id) := by
  constructor
  · rw [Expr.paths]
    split
    · rename_i p dotted
      have startsHere := reads.start p dotted
      rw [← Path.startsIn_append (Expr.dotted_ne_nil dotted) [id]] at startsHere
      simp [startsHere]
    · exact reads.paths
  · intro p dotted
    obtain ⟨q, ofTarget, rfl⟩ := Option.map_eq_some_iff.mp dotted
    rw [Path.startsIn_append (Expr.dotted_ne_nil ofTarget)]
    exact reads.start q ofTarget

theorem covers_call {callee : Expr} {arguments : List Expr} :
    c.Covers locals (callee.apply arguments).paths ↔
      c.Covers locals callee.paths ∧ ∀ e ∈ arguments, c.Covers locals e.paths := by
  rw [Expr.apply, Expr.paths, Arguments.paths_ofList, covers_append, covers_flatMap]

theorem covers_conversion {conversion : Conversion} (own : c.Covers locals conversion.ownPaths)
    {e : Expr} (reads : c.Reads locals e) : c.Covers locals (conversion.apply e).paths := by
  cases conversion with
  | identity => exact reads.paths
  | content => exact (reads.attribute "value").paths
  | constant result => exact own
  | call function =>
    refine covers_call.mpr ⟨own, List.forall_mem_singleton.mpr ?_⟩
    exact reads.paths

theorem covers_builtin {id : String} (isBuiltin : id ∈ builtins) :
    c.Covers locals (Expr.name id).paths := by
  simp [Expr.paths, Resolves.builtin id isBuiltin]

theorem covers_typing {type : String} (known : type ∈ ["Dict", "List", "Optional", "Union"])
    (imported : .typing type ∈ c.imports) {parameters : List Expr}
    (covered : ∀ e ∈ parameters, c.Covers locals e.paths) :
    c.Covers locals (Expr.generic type parameters).paths := by
  rw [Expr.generic, Expr.paths, Arguments.paths_ofList, Expr.paths, covers_append, covers_flatMap]
  have resolves := resolves_library (.typing type known) imported []
  exact ⟨by simp [resolves], covered⟩

section Generated

variable {scope : Scope} {ref : TypeRef} {id : String}

theorem covers_generatedName (offered : c.Offers scope ref id)
    (imported : (scope.generatedName ref id).imports ⊆ c.imports) :
    c.Covers locals (scope.generatedName ref id).expr.paths := by
  unfold Offers at offered
  unfold Scope.generatedName at imported ⊢
  by_cases isLocal : scope.isLocal ref = true
  · rw [if_pos isLocal] at offered ⊢
    exact covers_path (.own id offered)
  · rw [if_neg isLocal] at offered imported ⊢
    have resolves := resolves_foreign (imported List.mem_cons_self) offered
    exact covers_path resolves

theorem covers_generatedMember (offered : c.OffersMember scope ref id)
    (imported : (scope.generatedClass ref).imports ⊆ c.imports) :
    c.Covers locals ((scope.generatedClass ref).expr.attribute id).paths := by
  unfold OffersMember at offered
  unfold Scope.generatedClass Scope.generatedName at imported ⊢
  by_cases isLocal : scope.isLocal ref = true
  · rw [if_pos isLocal] at offered ⊢
    exact covers_path (.member ref.className id offered)
  · rw [if_neg isLocal] at offered imported ⊢
    have resolves := resolves_foreignMember (imported List.mem_cons_self) offered
    exact covers_path resolves

end Generated

section Host

variable {ref : TypeRef} (imported : (hostClass ref).imports ⊆ c.imports)
include imported

theorem covers_host {e : Expr} {rest : Path}
    (dotted : e.dotted? = some (Name.moduleAlias (Name.hostModule ref.file) :: rest)) :
    c.Covers locals e.paths := by
  have resolves := resolves_library (.host ref.file) (imported List.mem_cons_self) rest
  rw [Expr.paths_of_dotted dotted]
  exact covers_path resolves

theorem covers_hostClass : c.Covers locals (hostClass ref).expr.paths :=
  covers_host imported (Expr.dotted_path (.name _) _ _ rfl)

theorem covers_hostAttribute (id : String) :
    c.Covers locals ((hostClass ref).expr.attribute id).paths := by
  have dotted := Expr.dotted_path (.name (Name.moduleAlias (Name.hostModule ref.file))) _
    (if ref.path = [] then [""] else ref.path) rfl
  exact covers_host imported (congrArg (Option.map (· ++ [id])) dotted)

end Host

end Context

theorem covers_support {c : Context} {locals : List String} (imported : .wellKnownSupport ∈ c.imports)
    (id : String) : c.Covers locals (WellKnown.supportName id).paths := by
  have resolves := Context.resolves_library .wellKnown imported [id]
  exact Context.covers_path resolves

end Value

open Code (Expr)
open Schema (ElementType Field TypeRef)
open Value (Context covers_support)

variable {c : Context} {locals : List String}

namespace WellKnown

theorem support_imported (known : WellKnown) : Import.wellKnownSupport ∈ known.imports := by
  cases known <;> simp [imports]

variable {known : WellKnown} (imported : known.imports ⊆ c.imports)
include imported

theorem covers_nativeType : c.Covers locals known.nativeType.paths := by
  have ofDatetime (isThere : { module := "datetime" } ∈ c.imports) (id : String) :
      c.Covers locals (Expr.attribute (.name "datetime") id).paths := by
    have resolves := Context.resolves_library (.standard "datetime" (by decide)) isThere [id]
    exact Context.covers_path resolves
  cases known with
  | empty => exact covers_support (imported (support_imported _)) "Empty"
  | timestamp => exact ofDatetime (imported List.mem_cons_self) "datetime"
  | duration => exact ofDatetime (imported List.mem_cons_self) "timedelta"
  | _ => exact Context.covers_builtin (by decide)

theorem covers_reader : c.Covers locals known.reader.ownPaths := by
  have support := imported (support_imported known)
  cases known with
  | empty | timestamp | duration => exact covers_support support _
  | _ => exact Context.covers_nil

theorem covers_writer : c.Covers locals known.writer.ownPaths := by
  have support := imported (support_imported known)
  cases known with
  | empty =>
    have host : emptyModule = Name.hostModule "google/protobuf/empty.proto" := by decide +kernel
    have ofHost : .ofModule (Name.hostModule "google/protobuf/empty.proto") ∈ c.imports :=
      host ▸ imported List.mem_cons_self
    have resolves := Context.resolves_library (.host _) ofHost ["Empty"]
    rw [← host] at resolves
    exact Context.covers_path resolves
  | _ => exact covers_support support _

end WellKnown

namespace Mapper

open Mapping (MappedType Transform)

variable {mapper : Mapper} {e : ElementType}

theorem mapElement_covers (served : c.Serves mapper e) {t : MappedType}
    (result : mapper.mapElement e = .ok t) (imported : t.imports ⊆ c.imports) :
    c.Covers locals t.type.paths := by
  cases e with
  | scalar type =>
    rw [mapElement] at result
    cases result
    cases type <;> exact Context.covers_builtin (by decide)
  | enum ref =>
    rw [mapElement, mapEnum] at result
    by_cases google : isGoogleType ref.fullName = true
    · rw [if_pos google] at result
      cases result
      exact Context.covers_builtin (by decide)
    · rw [if_neg google] at result
      obtain ⟨first, _, result⟩ := Result.bind_eq_ok.mp result
      cases result
      have offered := (served ref rfl (by simpa using google)).className
      exact Context.covers_generatedName offered imported
  | message ref =>
    rw [mapElement, mapMessage] at result
    split at result
    · cases result
      exact WellKnown.covers_nativeType imported
    · by_cases google : isGoogleType ref.fullName = true
      · rw [if_pos google] at result
        cases result
        exact Context.covers_hostClass imported
      · rw [if_neg google] at result
        cases result
        have offered := (served ref rfl (by simpa using google)).className
        exact Context.covers_generatedName offered imported
  | unknownScalar | undeclared | missing => cases result

theorem mapElement_default_covers (served : c.ServesDefault mapper e) (single : e.isMessage = false)
    {t : MappedType} (result : mapper.mapElement e = .ok t) (imported : t.imports ⊆ c.imports) :
    c.Covers locals t.default.toExpr.paths := by
  cases e with
  | scalar type =>
    rw [mapElement] at result
    cases result
    exact Context.covers_nil
  | enum ref =>
    rw [mapElement, mapEnum] at result
    by_cases google : isGoogleType ref.fullName = true
    · rw [if_pos google] at result
      cases result
      exact Context.covers_nil
    · rw [if_neg google] at result
      obtain ⟨first, found, result⟩ := Result.bind_eq_ok.mp result
      cases result
      have offered := served ref first rfl (by simpa using google) found
      exact Context.covers_generatedMember offered imported
  | message ref => cases single
  | unknownScalar | undeclared | missing => cases result

theorem mapField_covers {f : Field} (served : ∀ e ∈ f.elements, c.Serves mapper e) {t : MappedType}
    (result : mapper.mapField f = .ok t) (imported : t.imports ⊆ c.imports) :
    c.Covers locals t.type.paths := by
  cases f with
  | map info key value =>
    simp only [mapField, Result.bind_eq_ok, Result.pure_eq_ok] at result
    obtain ⟨ofKey, keyMapped, ofValue, valueMapped, rfl⟩ := result
    simp only [List.append_subset, List.cons_subset] at imported
    refine Context.covers_typing (by decide) imported.2.1 fun parameter member => ?_
    rcases List.mem_cons.mp member with rfl | member
    · exact mapElement_covers (served _ List.mem_cons_self) keyMapped imported.1.1
    · rw [List.mem_singleton.mp member]
      exact mapElement_covers (served _ (by simp [Field.elements])) valueMapped imported.1.2
  | ordinary info =>
    rw [mapField] at result
    obtain ⟨base, mapped, result⟩ := Result.bind_eq_ok.mp result
    have ofBase := served info.element List.mem_cons_self
    by_cases repeated : info.isRepeated = true
    · rw [if_pos repeated] at result
      cases result
      simp only [List.append_subset, List.cons_subset] at imported
      refine Context.covers_typing (by decide) imported.2.1 (List.forall_mem_singleton.mpr ?_)
      exact mapElement_covers ofBase mapped imported.1
    · rw [if_neg repeated] at result
      by_cases presence : (Field.ordinary info).hasPresence = true
      · rw [if_pos presence] at result
        cases result
        simp only [List.append_subset, List.cons_subset] at imported
        refine Context.covers_typing (by decide) imported.2.1 (List.forall_mem_singleton.mpr ?_)
        exact mapElement_covers ofBase mapped imported.1
      · rw [if_neg presence] at result
        cases result
        exact mapElement_covers ofBase mapped imported

theorem factory_covers (imported : { module := "dataclasses" } ∈ c.imports) {id : String}
    (isBuiltin : id ∈ Value.builtins) :
    c.Covers locals (Mapping.Default.factory (.name id)).toExpr.paths := by
  have resolves := Context.resolves_library (.standard "dataclasses" (by decide)) imported ["field"]
  simp [Mapping.Default.toExpr, Expr.paths, Expr.dotted?, Code.Arguments.paths, resolves,
    Context.Resolves.builtin id isBuiltin]

theorem mapField_default_covers {f : Field} (served : ∀ e ∈ f.elements, c.ServesDefault mapper e)
    {t : MappedType} (result : mapper.mapField f = .ok t) (imported : t.imports ⊆ c.imports)
    (ofClasses : { module := "dataclasses" } ∈ c.imports) :
    c.Covers locals t.default.toExpr.paths := by
  cases f with
  | map info key value =>
    simp only [mapField, Result.bind_eq_ok, Result.pure_eq_ok] at result
    obtain ⟨ofKey, _, ofValue, _, rfl⟩ := result
    exact factory_covers ofClasses (by decide)
  | ordinary info =>
    rw [mapField] at result
    obtain ⟨base, mapped, result⟩ := Result.bind_eq_ok.mp result
    by_cases repeated : info.isRepeated = true
    · rw [if_pos repeated] at result
      cases result
      exact factory_covers ofClasses (by decide)
    · rw [if_neg repeated] at result
      by_cases presence : (Field.ordinary info).hasPresence = true
      · rw [if_pos presence] at result
        cases result
        exact Context.covers_nil
      · rw [if_neg presence] at result
        cases result
        have single : info.element.isMessage = false := by
          simp [Field.hasPresence, Field.isImplicitOptional, Field.isMap, Field.info,
            Field.element, repeated] at presence
          exact presence.2
        exact mapElement_default_covers (served _ List.mem_cons_self) single mapped imported

theorem generatedTransform_covers {ref : TypeRef} {function : String}
    (offered : c.Offers mapper.scope ref function) {t : Transform}
    (result : mapper.generatedTransform ref function = .ok t) (imported : t.imports ⊆ c.imports) :
    c.Covers locals t.conversion.ownPaths := by
  rw [generatedTransform_eq_ok result] at imported ⊢
  exact Context.covers_generatedName offered imported

theorem reader_covers (served : c.Serves mapper e) {t : Transform} (result : mapper.reader e = .ok t)
    (imported : t.imports ⊆ c.imports) : c.Covers locals t.conversion.ownPaths := by
  cases e with
  | scalar | unknownScalar =>
    cases result
    exact Context.covers_nil
  | enum ref =>
    rw [reader] at result
    by_cases google : isGoogleType ref.fullName = true
    · rw [if_pos google] at result
      cases result
      exact Context.covers_nil
    · rw [if_neg google] at result
      have offered := (served ref rfl (by simpa using google)).reader
      exact generatedTransform_covers offered result imported
  | message ref =>
    rw [reader] at result
    split at result
    · cases result
      exact WellKnown.covers_reader imported
    · by_cases google : isGoogleType ref.fullName = true
      · rw [if_pos google] at result
        cases result
        exact covers_support (imported (by simp)) "copy_message"
      · rw [if_neg google] at result
        have offered := (served ref rfl (by simpa using google)).reader
        exact generatedTransform_covers offered result imported
  | undeclared | missing => cases result

theorem writer_covers (served : c.Serves mapper e) {t : Transform} (result : mapper.writer e = .ok t)
    (imported : t.imports ⊆ c.imports) : c.Covers locals t.conversion.ownPaths := by
  cases e with
  | scalar | unknownScalar =>
    cases result
    exact Context.covers_nil
  | enum ref =>
    rw [writer] at result
    by_cases google : isGoogleType ref.fullName = true
    · rw [if_pos google] at result
      cases result
      exact Context.covers_nil
    · rw [if_neg google] at result
      have offered := (served ref rfl (by simpa using google)).writer
      exact generatedTransform_covers offered result imported
  | message ref =>
    rw [writer] at result
    split at result
    · cases result
      exact WellKnown.covers_writer imported
    · by_cases google : isGoogleType ref.fullName = true
      · rw [if_pos google] at result
        cases result
        exact Context.covers_nil
      · rw [if_neg google] at result
        have offered := (served ref rfl (by simpa using google)).writer
        exact generatedTransform_covers offered result imported
  | undeclared | missing => cases result

end Mapper

end ProtoBindings
