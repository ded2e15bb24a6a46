import ProtoBindings.Proofs.Value.Bodies

namespace ProtoBindings.Value

open Code (Expr Function blockBound blockPaths inClass nameInClass)
open Schema (EnumType Field Member Message Oneof)

structure Context.DefinesEnum (c : Context) (e : EnumType) : Prop where
  className : e.ref.className ∈ c.defined
  member : ∀ member ∈ (enumClass e).members, (e.ref.className, member.name) ∈ c.members
  fromHost : (EnumTables.fromHostName e.ref.constantStem, "get") ∈ c.members
  toHost : EnumTables.toHostName e.ref.constantStem ∈ c.defined

variable {c : Context}

section Enum

variable {e : EnumType}

theorem unrecognized_mem (e : EnumType) :
    ∃ member ∈ (enumClass e).members, member.name = Schema.unrecognized := by
  by_cases declared : e.declaresUnrecognized = true
  · have found := declared
    rw [EnumType.declaresUnrecognized, List.any_eq_true] at found
    obtain ⟨value, isValue, named⟩ := found
    refine ⟨_, List.mem_append_left _ (List.mem_map_of_mem isValue), ?_⟩
    have kept : Name.escape Schema.unrecognized = Schema.unrecognized := by decide
    rwa [beq_iff_eq.mp named]
  · refine ⟨⟨Schema.unrecognized, e.unrecognizedNumber⟩, ?_, rfl⟩
    simp [enumClass, declared]

theorem value_mem {value : Schema.EnumValue} (isValue : value ∈ e.values) :
    ∃ member ∈ (enumClass e).members, member.name = Name.escape value.name :=
  ⟨_, List.mem_append_left _ (List.mem_map_of_mem isValue), rfl⟩

theorem enumClass_resolves (imported : { module := "enum" } ∈ c.imports) :
    ∀ p ∈ (enumClass e).item.evaluated, c.Resolves p := by
  intro p member
  rw [EnumClass.item, List.mem_singleton] at member
  rw [member]
  exact Context.resolves_library (.standard "enum" (by decide)) imported ["IntEnum"]

theorem enumTables_resolves (members : ∀ member ∈ (enumClass e).members,
    (e.ref.className, member.name) ∈ c.members) (imported : (hostClass e.ref).imports ⊆ c.imports) :
    ∀ p ∈ (enumTables e).item.evaluated, c.Resolves p := by
  have own {name : String} (isMember : ∃ member ∈ (enumClass e).members, member.name = name) :
      c.Resolves [e.ref.className, name] := by
    obtain ⟨member, inClass, rfl⟩ := isMember
    exact .member _ _ (members member inClass)
  have host (text : String) : c.Covers [] (((hostClass e.ref).expr.attribute "Value").apply
      [.string text]).paths := by
    refine Context.covers_call.mpr ⟨Context.covers_hostAttribute imported _, List.forall_mem_singleton.mpr ?_⟩
    exact Context.covers_nil
  have declared : ∀ entry ∈ (enumTables e).fromHost,
      c.Covers [] (entry.host.paths ++ [[e.ref.className, entry.member]]) := by
    intro entry isEntry
    obtain ⟨value, isValue, rfl⟩ := List.mem_map.mp isEntry
    have resolves := own (value_mem (List.mem_filter.mp isValue).1)
    simp only [Context.covers_append, Context.covers_cons, Context.covers_nil, and_true]
    exact ⟨host value.name, .inr resolves⟩
  refine Context.Covers.resolves (Context.covers_flatMap.mpr fun entry member => ?_)
  have toHost : (enumTables e).toHost = (enumTables e).fromHost ++
      [⟨Schema.unrecognized, .number e.unrecognizedNumber⟩] := rfl
  rw [toHost, List.mem_append, List.mem_append, List.mem_singleton] at member
  rcases member with member | member | rfl
  · exact declared entry member
  · exact declared entry member
  · exact Context.covers_path (own (unrecognized_mem e))

variable (defines : c.DefinesEnum e)
include defines

theorem enumReader_closed : Closed c (enumReader e) := by
  constructor
  · rfl
  · exact Context.covers_builtin (by decide)
  · exact Context.covers_own defines.className
  · intro locals params bound
    have number : "number" ∈ locals := params (by simp [enumReader, Code.Param.bound, Code.Param.typed])
    simp only [enumReader, blockPaths, Code.Stmt.paths, List.append_nil]
    refine Context.covers_call.mpr ⟨?_, fun argument member => ?_⟩
    · exact Context.covers_path (.member _ _ defines.fromHost)
    · simp only [List.mem_cons, List.not_mem_nil, or_false] at member
      rcases member with rfl | rfl
      · exact (Context.reads_name number).paths
      · obtain ⟨member, inClass, named⟩ := unrecognized_mem e
        rw [← named]
        exact Context.covers_path (.member _ _ (defines.member member inClass))

theorem enumWriter_closed : Closed c (enumWriter e) := by
  constructor
  · rfl
  · exact Context.covers_own defines.className
  · exact Context.covers_builtin (by decide)
  · intro locals params bound
    have value : "value" ∈ locals := params (by simp [enumWriter, Code.Param.bound, Code.Param.typed])
    simp only [enumWriter, blockPaths, Code.Stmt.paths, Expr.paths, Code.Arguments.paths_ofList,
      List.flatMap_cons, List.flatMap_nil, List.append_nil, Context.covers_append]
    exact ⟨Context.covers_own defines.toHost, (Context.reads_name value).paths⟩

end Enum

section Class

variable {mapper : Mapper} {m : Message}

theorem presenceMethod_bodyPaths (f : Field) : (presenceMethod f).bodyPaths = [] := rfl

theorem presenceMethod_annotated (f : Field) : c.Covers [] (presenceMethod f).annotationPaths :=
  Context.covers_builtin (by decide)

theorem memberAttribute_default_covers
    (served : ∀ f ∈ m.fields, ∀ e ∈ f.elements, c.ServesDefault mapper e)
    {member : Member} (isMember : member ∈ m.members) {a : Attribute}
    (result : memberAttribute mapper m member = .ok a) (imported : a.imports ⊆ c.imports)
    (ofClasses : { module := "dataclasses" } ∈ c.imports) : c.Covers [] a.default.paths := by
  rcases Message.mem_members isMember with ⟨f, isField, rfl⟩ | ⟨o, _, rfl⟩
  · obtain ⟨_, mapped, found, _, default, imports⟩ := fieldAttribute_eq_ok result
    rw [default]
    exact Mapper.mapField_default_covers (served f isField) found (imports ▸ imported) ofClasses
  · cases result
    exact Context.covers_nil

theorem memberAttribute_type_covers (defines : c.Defines m)
    (served : ∀ f ∈ m.fields, ∀ e ∈ f.elements, c.Serves mapper e)
    {member : Member} (isMember : member ∈ m.members) {a : Attribute}
    (result : memberAttribute mapper m member = .ok a) (imported : a.imports ⊆ c.imports) :
    c.Covers [] a.type.paths := by
  rcases Message.mem_members isMember with ⟨f, isField, rfl⟩ | ⟨o, isOneof, rfl⟩
  · obtain ⟨_, mapped, found, type, _, imports⟩ := fieldAttribute_eq_ok result
    rw [type]
    exact Mapper.mapField_covers (served f isField) found (imports ▸ imported)
  · cases result
    exact oneofType_covers defines isOneof (imported List.mem_cons_self)

/-- What the defaults of a class evaluate has no names that are private to it. -/
def Declaration.ShowsDefaults (d : Declaration) : Prop :=
  ∀ a ∈ d.attributes, inClass d.name a.default.paths = a.default.paths

instance (d : Declaration) : Decidable d.ShowsDefaults :=
  inferInstanceAs (Decidable (∀ a ∈ d.attributes, _))

/-- No default starts with what an earlier attribute is called inside the class. -/
def Declaration.DefaultsFree (d : Declaration) : Prop :=
  d.attributes.Pairwise fun earlier later =>
    ∀ p ∈ inClass d.name later.default.paths, p.startsIn [nameInClass d.name earlier.name] = false

instance (d : Declaration) : Decidable d.DefaultsFree :=
  inferInstanceAs (Decidable (d.attributes.Pairwise _))

theorem mem_defaultPathsFrom {className : String} {taken : List String} {attributes : List Attribute}
    {entry : List String × Code.Path}
    (member : entry ∈ DataClass.defaultPathsFrom className taken attributes) :
    ∃ a ∈ attributes, entry.2 ∈ inClass className a.default.paths := by
  induction attributes generalizing taken with
  | nil => cases member
  | cons a rest ih =>
    rw [DataClass.defaultPathsFrom, List.mem_append] at member
    rcases member with here | later
    · obtain ⟨p, isPath, rfl⟩ := List.mem_map.mp here
      exact ⟨a, List.mem_cons_self, isPath⟩
    · obtain ⟨b, isAttribute, isPath⟩ := ih later
      exact ⟨b, List.mem_cons_of_mem _ isAttribute, isPath⟩

theorem dataClass_resolves {d : DataClass} (ofClasses : { module := "dataclasses" } ∈ c.imports)
    (shown : (Declaration.dataClass d).ShowsDefaults)
    (defaults : ∀ a ∈ d.attributes, c.Covers [] a.default.paths)
    (methods : ∀ f ∈ d.methods, f.evaluated = []) : ∀ p ∈ d.item.evaluated, c.Resolves p := by
  have decorator := Context.resolves_library (.standard "dataclasses" (by decide)) ofClasses ["dataclass"]
  intro p isPath
  rw [DataClass.item, List.cons_append, List.mem_cons, List.mem_append] at isPath
  rcases isPath with rfl | inDefault | inMethod
  · exact decorator
  · obtain ⟨entry, isEntry, rfl⟩ := List.mem_map.mp inDefault
    obtain ⟨a, isAttribute, ofDefault⟩ := mem_defaultPathsFrom (List.mem_filter.mp isEntry).1
    have same : inClass d.name a.default.paths = a.default.paths := shown a isAttribute
    rw [same] at ofDefault
    exact (defaults a isAttribute).resolves _ ofDefault
  · have none : d.methods.flatMap (·.evaluated) = [] := List.flatMap_eq_nil_iff.mpr methods
    rw [none] at inMethod
    cases inMethod

theorem oneofDeclarations_runs {o : Oneof} (isOneof : o ∈ m.oneofs)
    (served : ∀ f ∈ m.allFields, ∀ e ∈ f.elements, c.ServesDefault mapper e)
    {declarations : List Declaration} (result : oneofDeclarations mapper m o = .ok declarations)
    (imported : declarations.flatMap (·.imports) ⊆ c.imports)
    (ofClasses : { module := "dataclasses" } ∈ c.imports)
    (shown : ∀ d ∈ declarations, d.ShowsDefaults) : c.Runs (declarations.map (·.item)) := by
  obtain ⟨variants, walk, rfl⟩ := oneofDeclarations_eq_ok result
  rw [List.flatMap_append, List.append_subset] at imported
  rw [List.map_append, Context.runs_append]
  constructor
  · refine Context.runs_of_forall fun item member => ?_
    simp only [List.map_map, List.mem_map, Function.comp_apply] at member
    obtain ⟨d, isVariant, rfl⟩ := member
    obtain ⟨f, isField, result⟩ := walk.exists_left isVariant
    obtain ⟨_, noMethods, a, found, attributes⟩ := variantClass_eq_ok result
    obtain ⟨_, mapped, found, _, default, imports⟩ := fieldAttribute_eq_ok found
    have ofField := served f (Message.mem_allFields.mpr (.inr ⟨o, isOneof, isField⟩))
    have inModule : mapped.imports ⊆ c.imports := by
      intro i isImport
      refine imported.1 (List.mem_flatMap.mpr ⟨.dataClass d, List.mem_map_of_mem isVariant, ?_⟩)
      simp [Declaration.imports, attributes, imports, isImport]
    have ownShown := shown _ (List.mem_append_left _ (List.mem_map_of_mem isVariant))
    refine dataClass_resolves ofClasses ownShown ?_ (by simp [noMethods])
    rw [attributes, List.forall_mem_singleton, default]
    exact Mapper.mapField_default_covers ofField found inModule ofClasses
  · refine ⟨fun p member => ?_, True.intro⟩
    rcases List.mem_cons.mp member with rfl | member
    · have union : .typing "Union" ∈ c.imports := imported.2 (by simp [Declaration.imports])
      exact (Context.resolves_library (.typing "Union" (by decide)) union []).mono (.extend c _)
    · simp only [List.map_map, List.mem_map, Function.comp_apply] at member
      obtain ⟨d, isVariant, rfl⟩ := member
      refine .own d.name (List.mem_append_right _ (List.mem_flatMap.mpr ⟨d.item, ?_, ?_⟩))
      · exact List.mem_map.mpr ⟨.dataClass d, List.mem_map_of_mem isVariant, rfl⟩
      · exact List.mem_singleton.mpr rfl

theorem messageDeclarations_runs
    (served : ∀ f ∈ m.allFields, ∀ e ∈ f.elements, c.ServesDefault mapper e)
    {declarations : List Declaration} (result : messageDeclarations mapper m = .ok declarations)
    (imported : declarations.flatMap (·.imports) ⊆ c.imports)
    (ofClasses : { module := "dataclasses" } ∈ c.imports)
    (shown : ∀ d ∈ declarations, d.ShowsDefaults) : c.Runs (declarations.map (·.item)) := by
  obtain ⟨oneofs, d, rfl, walk, built⟩ := messageDeclarations_eq_ok result
  rw [List.flatMap_append, List.append_subset] at imported
  rw [List.map_append, Context.runs_append, List.map_flatten]
  constructor
  · refine Context.runs_flatten fun chunk member => ?_
    obtain ⟨declarations, isChunk, rfl⟩ := List.mem_map.mp member
    obtain ⟨o, isOneof, result⟩ := walk.exists_left isChunk
    have inMessage {d : Declaration} (isDeclared : d ∈ declarations) : d ∈ oneofs.flatten :=
      List.mem_flatten.mpr ⟨declarations, isChunk, isDeclared⟩
    refine oneofDeclarations_runs isOneof served result (fun i isImport => ?_) ofClasses
      fun d isDeclared => shown d (List.mem_append_left _ (inMessage isDeclared))
    obtain ⟨d, isDeclared, ofDeclaration⟩ := List.mem_flatMap.mp isImport
    exact imported.1 (List.mem_flatMap.mpr ⟨d, inMessage isDeclared, ofDeclaration⟩)
  · refine Context.runs_of_forall fun item member => ?_
    rw [List.map_singleton, List.mem_singleton] at member
    rw [member]
    have ofFields : ∀ f ∈ m.fields, ∀ e ∈ f.elements, c.ServesDefault mapper e := fun f isField =>
      served f (Message.mem_allFields.mpr (.inl isField))
    have ownShown := shown _ (List.mem_append_right _ (List.mem_singleton_self _))
    refine fun p isPath =>
      (dataClass_resolves ofClasses ownShown (fun a isAttribute => ?_) ?_ p isPath).mono (.extend c _)
    · obtain ⟨member, isMember, result⟩ := built.attributes.exists_left isAttribute
      refine memberAttribute_default_covers ofFields isMember result (fun i isImport => ?_) ofClasses
      refine imported.2 (List.mem_flatMap.mpr ⟨_, List.mem_singleton_self _, ?_⟩)
      exact List.mem_append_left _ (List.mem_flatMap.mpr ⟨a, isAttribute, isImport⟩)
    · intro f isMethod
      rw [built.methods] at isMethod
      obtain ⟨field, _, rfl⟩ := List.mem_map.mp isMethod
      rfl

theorem messageDeclarations_resolves (defines : c.Defines m)
    (served : ∀ f ∈ m.allFields, ∀ e ∈ f.elements, c.Serves mapper e)
    {declarations : List Declaration} (result : messageDeclarations mapper m = .ok declarations)
    (imported : declarations.flatMap (·.imports) ⊆ c.imports) :
    ∀ d ∈ declarations, ∀ p ∈ d.item.deferred, c.Resolves p := by
  intro d isDeclared
  have ofDeclaration : d.imports ⊆ c.imports := fun i isImport =>
    imported (List.mem_flatMap.mpr ⟨d, isDeclared, isImport⟩)
  cases declaredBy_of_mem result isDeclared with
  | @variant o f d isOneof isField found =>
    obtain ⟨_, noMethods, a, found, attributes⟩ := variantClass_eq_ok found
    obtain ⟨_, mapped, found, type, _, imports⟩ := fieldAttribute_eq_ok found
    have ofField := served f (Message.mem_allFields.mpr (.inr ⟨o, isOneof, isField⟩))
    have inModule : mapped.imports ⊆ c.imports := by
      intro i isImport
      exact ofDeclaration (by simp [Declaration.imports, attributes, imports, isImport])
    have covered : c.Covers [] mapped.type.paths := Mapper.mapField_covers ofField found inModule
    refine Context.Covers.resolves ?_
    simpa [Declaration.item, DataClass.item, noMethods, attributes, type, inClass] using covered
  | union =>
    intro p none
    cases none
  | @message d built =>
    have ofFields : ∀ f ∈ m.fields, ∀ e ∈ f.elements, c.Serves mapper e := fun f isField =>
      served f (Message.mem_allFields.mpr (.inl isField))
    refine Context.Covers.resolves ?_
    have noBodies : d.methods.flatMap (·.bodyPaths) = [] := by
      refine List.flatMap_eq_nil_iff.mpr fun f isMethod => ?_
      rw [built.methods] at isMethod
      obtain ⟨field, _, rfl⟩ := List.mem_map.mp isMethod
      exact presenceMethod_bodyPaths field
    simp only [Declaration.item, DataClass.item, noBodies, Context.covers_append, Context.covers_flatMap]
    refine ⟨⟨?_, ?_⟩, Context.covers_nil⟩
    · intro a isAttribute
      obtain ⟨member, isMember, result⟩ := built.attributes.exists_left isAttribute
      refine memberAttribute_type_covers defines ofFields isMember result fun i isImport => ?_
      exact ofDeclaration
        (List.mem_append_left _ (List.mem_flatMap.mpr ⟨a, isAttribute, isImport⟩))
    · intro f isMethod
      rw [built.methods] at isMethod
      obtain ⟨field, _, rfl⟩ := List.mem_map.mp isMethod
      exact presenceMethod_annotated field

theorem parserConstant_resolves (defines : c.Defines m)
    (imported : (parserConstant m).imports ⊆ c.imports) :
    ∀ p ∈ (parserConstant m).item.evaluated ++ (parserConstant m).item.deferred, c.Resolves p := by
  have both : (hostClass m.ref).imports ++ [.parserSupport] ⊆ c.imports := imported
  rw [List.append_subset, List.cons_subset] at both
  have parser := Context.resolves_library .parsers both.2.1 ["IdiomParser"]
  refine Context.Covers.resolves ?_
  simp only [ParserConstant.item, List.cons_append, Context.covers_cons, Context.covers_append,
    Context.covers_nil, and_true]
  refine ⟨.inr parser, ⟨Context.covers_hostClass both.1, .inr ?_⟩, .inr parser, .inr ?_⟩
  · exact .own _ defines.reader
  · exact .own _ defines.className

end Class

end ProtoBindings.Value
