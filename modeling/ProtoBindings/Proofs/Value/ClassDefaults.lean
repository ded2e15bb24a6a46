import ProtoBindings.Proofs.Value.ClassBody

namespace ProtoBindings

def Code.Expr.heads (e : Expr) : List String := e.paths.filterMap (·.head?)

namespace Schema

def ElementType.defaultEnum? : ElementType → Option TypeRef
  | enum ref => if isGoogleType ref.fullName then none else some ref
  | _ => none

namespace Field

/-- The enum whose first value is the default of a field. -/
def defaultEnum? : Field → Option TypeRef
  | ordinary info =>
    if info.isRepeated || info.isExplicitOptional then none else info.element.defaultEnum?
  | map _ _ _ => none

def containerNames : Field → List String
  | ordinary info => if info.isRepeated then ["dataclasses", "list"] else []
  | map _ _ _ => ["dataclasses", "dict"]

theorem containerNames_known (f : Field) : f.containerNames ⊆ Name.classBodyNames := by
  cases f with
  | ordinary info =>
    rw [containerNames]
    split
    · decide
    · exact List.nil_subset _
  | map info key value =>
    rw [containerNames]
    decide

end Field

namespace Member

def defaultEnum? : Member → Option TypeRef
  | field f => f.defaultEnum?
  | oneof _ => none

def containerNames : Member → List String
  | field f => f.containerNames
  | oneof _ => []

theorem containerNames_known (member : Member) : member.containerNames ⊆ Name.classBodyNames := by
  cases member with
  | field f => exact f.containerNames_known
  | oneof o => exact List.nil_subset _

end Member

end Schema

open Name (Escapes escape isReserved moduleAlias)
open Schema (ElementType Field Member Message Oneof TypeRef)

namespace Scope

variable {scope : Scope} {name : String} {ref : TypeRef}

def firstName (scope : Scope) (ref : TypeRef) : String :=
  if scope.isLocal ref then ref.className else moduleAlias (scope.moduleOf ref)

/-- An attribute declared under this name hides what a reference to the class begins with. -/
def Hides (scope : Scope) (name : String) (ref : TypeRef) : Prop :=
  if scope.isLocal ref = true then
    name = ref.flatName ∨ Escapes name ref.flatName ∨ Escapes ref.flatName name
  else name = moduleAlias (scope.moduleOf ref)

instance : Decidable (scope.Hides name ref) :=
  inferInstanceAs (Decidable (if scope.isLocal ref = true then _ else _))

theorem hides_iff : scope.Hides name ref ↔ escape name = scope.firstName ref := by
  unfold Hides firstName
  split
  · exact Name.escape_eq_escape_iff.symm
  · exact (Name.escape_eq_append_iff (by decide +kernel)).symm

theorem generatedClass_heads (id : String) :
    ((scope.generatedClass ref).expr.attribute id).heads = [scope.firstName ref] := by
  unfold generatedClass generatedName firstName
  split
  · rfl
  · rfl

end Scope

namespace Mapper

open Mapping (MappedType)

variable {mapper : Mapper} {t : MappedType}

theorem mapEnum_heads {ref : TypeRef} (result : mapper.mapEnum ref = .ok t) : t.default.toExpr.heads =
    (ElementType.enum ref).defaultEnum?.toList.map mapper.scope.firstName := by
  unfold mapEnum at result
  rw [ElementType.defaultEnum?]
  split at result
  · rename_i google
    cases result
    rw [if_pos google]
    rfl
  · rename_i own
    obtain ⟨first, _, result⟩ := Result.bind_eq_ok.mp result
    cases result
    rw [if_neg own]
    exact Scope.generatedClass_heads _

theorem mapElement_heads {e : ElementType} (notMessage : e.isMessage = false)
    (result : mapper.mapElement e = .ok t) :
    t.default.toExpr.heads = e.defaultEnum?.toList.map mapper.scope.firstName := by
  cases e with
  | scalar type =>
    cases result
    rfl
  | enum ref => exact mapEnum_heads result
  | message ref => cases notMessage
  | unknownScalar | undeclared | missing => cases result

theorem defaultEnum_of_message {e : ElementType} (isMessage : e.isMessage = true) :
    e.defaultEnum? = none := by
  cases e with
  | enum ref => cases isMessage
  | _ => rfl

theorem defaultEnum_of_present {f : Field} (present : f.hasPresence = true) : f.defaultEnum? = none := by
  cases f with
  | ordinary info =>
    simp only [Field.hasPresence, Field.isImplicitOptional, Bool.or_eq_true, Bool.and_eq_true] at present
    rw [Field.defaultEnum?]
    rcases present with optional | ⟨⟨isMessage, _⟩, _⟩
    · have optional : info.isExplicitOptional = true := optional
      rw [optional, Bool.or_true]
      rfl
    · have isMessage : info.element.isMessage = true := isMessage
      rw [defaultEnum_of_message isMessage, ite_self]
  | map info key value => rfl

theorem mapField_heads {f : Field} (result : mapper.mapField f = .ok t) : t.default.toExpr.heads =
    f.containerNames ++ f.defaultEnum?.toList.map mapper.scope.firstName := by
  cases f with
  | ordinary info =>
    obtain ⟨base, found, result⟩ := Result.bind_eq_ok.mp result
    by_cases repeated : info.isRepeated = true
    · rw [if_pos repeated] at result
      cases result
      simp [Field.containerNames, Field.defaultEnum?, repeated]
      rfl
    · have single : info.isRepeated = false := Bool.eq_false_iff.mpr repeated
      have noContainer : (Field.ordinary info).containerNames = [] := if_neg repeated
      rw [if_neg repeated] at result
      rw [noContainer, List.nil_append]
      split at result
      · rename_i present
        cases result
        rw [defaultEnum_of_present present]
        rfl
      · rename_i absent
        cases result
        have absent : (Field.ordinary info).hasPresence = false := Bool.eq_false_iff.mpr absent
        have notMessage := Value.element_of_absent absent (Value.isSingle_ordinary repeated)
        have notOptional : info.isExplicitOptional = false := (Bool.or_eq_false_iff.mp absent).1
        rw [mapElement_heads notMessage found, Field.defaultEnum?, single, notOptional]
        rfl
  | map info key value =>
    obtain ⟨_, _, result⟩ := Result.bind_eq_ok.mp result
    obtain ⟨_, _, result⟩ := Result.bind_eq_ok.mp result
    cases result
    rfl

end Mapper

namespace Value

/-- No attribute takes the place of a name that the default of a later one evaluates. A default is
    evaluated before its own attribute is bound. -/
def Declaration.KeepsNames (d : Declaration) : Prop :=
  d.attributes.Pairwise fun earlier later => earlier.name ∉ later.default.heads

/-- No member hides the enum that the default of a later one is a value of. -/
def DefaultsApart (scope : Scope) (m : Message) : Prop :=
  m.members.Pairwise fun earlier later =>
    ∀ ref ∈ later.defaultEnum?, ¬ scope.Hides earlier.name ref

theorem Declaration.keepsNames_iff_free (d : Declaration) (shown : d.ShowsDefaults)
    (names : ∀ a ∈ d.attributes, Code.nameInClass d.name a.name = a.name) :
    d.KeepsNames ↔ d.DefaultsFree := by
  refine List.Pairwise.iff_of_mem fun {earlier later} isEarlier isLater => ?_
  rw [shown later isLater, names earlier isEarlier, Code.Expr.heads, List.mem_filterMap]
  constructor
  · intro kept p isPath
    cases p with
    | nil => rfl
    | cons id rest =>
      have other : id ≠ earlier.name := fun same => kept ⟨id :: rest, isPath, congrArg some same⟩
      simpa using other
  · rintro free ⟨p, isPath, isHead⟩
    obtain ⟨rest, rfl⟩ := List.head?_eq_some_iff.mp isHead
    simpa using free _ isPath

section Class

variable {mapper : Mapper} {m : Message} {a : Attribute}

theorem fieldAttribute_heads {f : Field} (result : fieldAttribute mapper f = .ok a) : a.default.heads =
    f.containerNames ++ f.defaultEnum?.toList.map mapper.scope.firstName := by
  obtain ⟨_, mapped, found, _, default, _⟩ := fieldAttribute_eq_ok result
  rw [default]
  exact Mapper.mapField_heads found

theorem memberAttribute_heads {member : Member} (result : memberAttribute mapper m member = .ok a) :
    a.default.heads =
      member.containerNames ++ member.defaultEnum?.toList.map mapper.scope.firstName := by
  cases member with
  | field f => exact fieldAttribute_heads result
  | oneof o =>
    cases result
    rfl

theorem attribute_of_declared {d : Declaration} (declared : DeclaredBy mapper m d)
    (isAttribute : a ∈ d.attributes) :
    (∃ f ∈ m.allFields, fieldAttribute mapper f = .ok a) ∨ ∃ o, a = oneofAttribute m o := by
  cases declared with
  | @variant o f d isOneof isField found =>
    obtain ⟨_, _, content, isContent, attributes⟩ := variantClass_eq_ok found
    have only : a ∈ [content] := attributes ▸ isAttribute
    rw [List.mem_singleton.mp only]
    exact .inl ⟨f, Message.field_of_oneof isOneof isField, isContent⟩
  | union => cases isAttribute
  | message built =>
    obtain ⟨member, isMember, found⟩ := built.attributes.exists_left isAttribute
    cases member with
    | field f => exact .inl ⟨f, Message.field_of_member isMember, found⟩
    | oneof o =>
      cases found
      exact .inr ⟨o, rfl⟩

theorem not_mem_classBodyNames {name : String} : escape name ∉ Name.classBodyNames := by
  intro known
  have reserved : isReserved (escape name) = true := by
    rw [isReserved, List.contains_iff_mem.mpr known, Bool.or_true]
  rw [Name.isReserved_escape] at reserved
  cases reserved

theorem hidden_iff {name : String} {member : Member} {scope : Scope} :
    escape name ∈ member.containerNames ++ member.defaultEnum?.toList.map scope.firstName ↔
      ∃ ref ∈ member.defaultEnum?, scope.Hides name ref := by
  have noContainer : escape name ∉ member.containerNames := fun isContainer =>
    not_mem_classBodyNames (member.containerNames_known isContainer)
  simp only [List.mem_append, noContainer, false_or, List.mem_map, Option.mem_toList, Scope.hides_iff]
  exact exists_congr fun ref => and_congr_right fun _ => eq_comm

theorem ClassBuilt.keeps_iff {c : DataClass} (built : ClassBuilt mapper m c) :
    (Declaration.dataClass c).KeepsNames ↔ DefaultsApart mapper.scope m := by
  have same : c.attributes.map (fun a => (a.name, a.default.heads)) =
      m.members.map fun member => (escape member.name,
        member.containerNames ++ member.defaultEnum?.toList.map mapper.scope.firstName) := by
    refine (built.attributes.map_eq fun member a found => ?_).symm
    rw [memberAttribute_name found, memberAttribute_heads found]
  have pairs : (Declaration.dataClass c).KeepsNames ↔
      (c.attributes.map fun a => (a.name, a.default.heads)).Pairwise
        fun earlier later => earlier.1 ∉ later.2 := by
    rw [List.pairwise_map]
    rfl
  rw [pairs, same, List.pairwise_map]
  refine List.Pairwise.iff fun earlier later => ?_
  rw [hidden_iff]
  exact ⟨fun shown ref isDefault hides => shown ⟨ref, isDefault, hides⟩,
    fun apart ⟨ref, isDefault, hides⟩ => apart ref isDefault hides⟩

theorem variant_keepsNames {o : Oneof} {f : Field} {d : DataClass}
    (result : variantClass mapper m o f = .ok d) : (Declaration.dataClass d).KeepsNames := by
  obtain ⟨_, _, a, _, single⟩ := variantClass_eq_ok result
  have attributes : (Declaration.dataClass d).attributes = [a] := single
  rw [Declaration.KeepsNames, attributes]
  exact List.pairwise_singleton _ a

end Class

instance (d : Declaration) : Decidable d.KeepsNames :=
  inferInstanceAs (Decidable (d.attributes.Pairwise _))

instance (scope : Scope) (m : Message) : Decidable (DefaultsApart scope m) :=
  inferInstanceAs (Decidable (m.members.Pairwise _))

/-- The defaults in the classes of a message evaluate the names of containers and those by which the enums
    of its fields are referred to. No attribute has a name of the former kind. Attributes take no name away
    that a later default evaluates, exactly if no member hides the enum of a later one. Where names that are
    private to the class are not involved, nothing else is taken away inside it. -/
theorem keepsNames_iff {mapper : Mapper} {m : Message} {declarations : List Declaration}
    (result : messageDeclarations mapper m = .ok declarations) :
    (∀ d ∈ declarations, ∀ a ∈ d.attributes, a.name ∉ Name.classBodyNames ∧
      ∀ id ∈ a.default.heads, id ∈ Name.classBodyNames ∨
        ∃ f ∈ m.allFields, ∃ ref ∈ f.defaultEnum?, id = mapper.scope.firstName ref) ∧
    ((∀ d ∈ declarations, d.KeepsNames) ↔ DefaultsApart mapper.scope m) ∧
    ∀ d ∈ declarations, d.ShowsDefaults → (∀ a ∈ d.attributes, Code.nameInClass d.name a.name = a.name) →
      (d.KeepsNames ↔ d.DefaultsFree) := by
  refine ⟨?_, ?_, fun d _ shown names => d.keepsNames_iff_free shown names⟩
  · intro d isDeclared a isAttribute
    rcases attribute_of_declared (declaredBy_of_mem result isDeclared) isAttribute with
      ⟨f, isField, found⟩ | ⟨o, rfl⟩
    · refine ⟨(fieldAttribute_eq_ok found).1 ▸ not_mem_classBodyNames, fun id isHead => ?_⟩
      rw [fieldAttribute_heads found] at isHead
      rcases List.mem_append.mp isHead with isContainer | isEnum
      · exact .inl (f.containerNames_known isContainer)
      · obtain ⟨ref, isDefault, rfl⟩ := List.mem_map.mp isEnum
        exact .inr ⟨f, isField, ref, Option.mem_toList.mp isDefault, rfl⟩
    · exact ⟨not_mem_classBodyNames, fun id isHead => nomatch isHead⟩
  · constructor
    · intro keeps
      obtain ⟨oneofs, c, rfl, _, built⟩ := messageDeclarations_eq_ok result
      apply built.keeps_iff.mp
      exact keeps _ (List.mem_append_right _ (List.mem_singleton_self _))
    · intro apart d isDeclared
      cases declaredBy_of_mem result isDeclared with
      | variant _ _ found => exact variant_keepsNames found
      | union => exact .nil
      | message built => exact built.keeps_iff.mpr apart

def track : Descriptor.Message where
  name := "Track"
  fields := [
    { name := "list", number := 1, type := .scalar .int32 },
    { name := "mood", number := 2, type := .enum, typeName := ".Mood" },
    { name := "tags", number := 3, type := .scalar .string, label := .repeated }]

def moodEnum : Descriptor.Enum where
  name := "Mood"
  values := [⟨"HAPPY", 0⟩]

def trackFile : Descriptor.File where
  name := "track.proto"
  messages := [track]
  enums := [moodEnum]

theorem track_keepsNames : ∃ m,
    Resolver.buildMessage Resolver.hostRoom (ownSymbols trackFile) trackFile [] track = .ok m ∧
      ∃ declarations, messageDeclarations (ownMapper trackFile) m = .ok declarations ∧
        ∀ d ∈ declarations, d.KeepsNames := by
  obtain ⟨m, built, apart, declarations, result, _⟩ : ∃ m,
      Resolver.buildMessage Resolver.hostRoom (ownSymbols trackFile) trackFile [] track = .ok m ∧
        DefaultsApart (ownMapper trackFile).scope m ∧
        ∃ declarations, messageDeclarations (ownMapper trackFile) m = .ok declarations ∧ True := by
    decide +kernel
  exact ⟨m, built, declarations, result, (keepsNames_iff result).2.1.mpr apart⟩

def songFile : Descriptor.File where
  name := "song.proto"
  messages := [{
    name := "Song"
    fields := [
      { name := "Mood", number := 1, type := .scalar .int32 },
      { name := "feeling", number := 2, type := .enum, typeName := ".Mood" }] }]
  enums := [moodEnum]

theorem song_hides_mood : OfFile songFile fun _ module =>
    (module.declarations.map fun d => d.attributes.map fun a => (a.name, a.default.heads)) =
      [[("Mood", []), ("feeling", ["Mood"])]] ∧
    ¬ ∀ d ∈ module.declarations, d.KeepsNames := by decide +kernel

end Value

end ProtoBindings
