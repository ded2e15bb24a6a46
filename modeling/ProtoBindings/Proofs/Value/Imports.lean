import ProtoBindings.Proofs.Value.Module

namespace ProtoBindings.Value

open Code (Function)
open Mapping (MappedType Transform)
open Schema (ElementType EnumType Field FileUnit Member Message Oneof TypeRef)

/-- An import of a library or a host module, or one that a reference to another file calls for, unless
    the type is one of `google`. -/
inductive Importable (scope : Scope) (refs : List TypeRef) : Import → Prop
  | library {i id} : Library i id → Importable scope refs i
  | generated (ref) : ref ∈ refs → isGoogleType ref.fullName = false → scope.isLocal ref = false →
      Importable scope refs (.ofModule (scope.moduleOf ref))

def ImportsKnown (scope : Scope) (refs : List TypeRef) (imports : List Import) : Prop :=
  ∀ i ∈ imports, Importable scope refs i

variable {scope : Scope} {refs : List TypeRef}

theorem ImportsKnown.mono {imports : List Import} {fewer : List TypeRef}
    (known : ImportsKnown scope fewer imports) (subset : fewer ⊆ refs) :
    ImportsKnown scope refs imports := by
  intro i member
  cases known i member with
  | library isLibrary => exact .library isLibrary
  | generated ref isRef own outside => exact .generated ref (subset isRef) own outside

theorem ImportsKnown.nil : ImportsKnown scope refs [] := by
  intro i member
  cases member

theorem ImportsKnown.append {first second : List Import} (known : ImportsKnown scope refs first)
    (others : ImportsKnown scope refs second) : ImportsKnown scope refs (first ++ second) := by
  intro i member
  rcases List.mem_append.mp member with member | member
  · exact known i member
  · exact others i member

theorem ImportsKnown.flatMap {α : Type} {items : List α} {imports : α → List Import}
    (each : ∀ item ∈ items, ImportsKnown scope refs (imports item)) :
    ImportsKnown scope refs (items.flatMap imports) := by
  intro i member
  obtain ⟨item, isItem, ofItem⟩ := List.mem_flatMap.mp member
  exact each item isItem i ofItem

theorem ImportsKnown.library {i : Import} {id : String} (isLibrary : Library i id) :
    ImportsKnown scope refs [i] := by
  intro j member
  rw [List.mem_singleton.mp member]
  exact .library isLibrary

theorem importsKnown_typing {name : String} (known : name ∈ ["Dict", "List", "Optional", "Union"]) :
    ImportsKnown scope refs [.typing name] := .library (.typing name known)

theorem importsKnown_hostClass (ref : TypeRef) : ImportsKnown scope refs (hostClass ref).imports :=
  .library (.host ref.file)

theorem importsKnown_generatedName {ref : TypeRef} (isRef : ref ∈ refs)
    (own : isGoogleType ref.fullName ≠ true) (id : String) :
    ImportsKnown scope refs (scope.generatedName ref id).imports := by
  rw [Scope.generatedName]
  split
  · exact .nil
  · rename_i outside
    intro i member
    rw [List.mem_singleton.mp member]
    exact .generated ref isRef (Bool.eq_false_iff.mpr own) (Bool.eq_false_iff.mpr outside)

theorem importsKnown_wellKnown (known : WellKnown) : ImportsKnown scope refs known.imports := by
  have support : ImportsKnown scope refs [.wellKnownSupport] := .library .wellKnown
  have datetime : ImportsKnown scope refs [{ module := "datetime" }] :=
    .library (.standard "datetime" (by decide))
  have host : WellKnown.emptyModule = Name.hostModule "google/protobuf/empty.proto" := by
    decide +kernel
  cases known with
  | empty =>
    have ofHost : ImportsKnown scope refs [.ofModule WellKnown.emptyModule] := by
      rw [host]
      exact .library (.host _)
    exact ofHost.append support
  | timestamp | duration => exact datetime.append support
  | _ => exact support

section Mapper

variable {mapper : Mapper}

theorem mapElement_imports {e : ElementType} {mapped : MappedType}
    (result : mapper.mapElement e = .ok mapped) :
    ImportsKnown mapper.scope e.ref?.toList mapped.imports := by
  cases e with
  | scalar type =>
    cases result
    exact .nil
  | enum ref =>
    simp only [Mapper.mapElement, Mapper.mapEnum] at result
    split at result
    · cases result
      exact .nil
    · rename_i own
      simp only [Result.bind_eq_ok, Result.pure_eq_ok] at result
      obtain ⟨first, _, rfl⟩ := result
      exact importsKnown_generatedName (List.mem_singleton_self ref) own _
  | message ref =>
    cases result
    rw [Mapper.mapMessage]
    split
    · exact importsKnown_wellKnown _
    · split
      · exact importsKnown_hostClass ref
      · rename_i own
        exact importsKnown_generatedName (List.mem_singleton_self ref) own _
  | _ => cases result

theorem mapField_imports {f : Field} {mapped : MappedType} (result : mapper.mapField f = .ok mapped) :
    ImportsKnown mapper.scope f.refs mapped.imports := by
  cases f with
  | map info key value =>
    simp only [Mapper.mapField, Result.bind_eq_ok, Result.pure_eq_ok] at result
    obtain ⟨ofKey, isKey, ofValue, isValue, rfl⟩ := result
    have keyKnown := (mapElement_imports isKey).mono
      (Field.refs_of_element (f := .map info key value) (by simp [Field.elements]))
    have valueKnown := (mapElement_imports isValue).mono
      (Field.refs_of_element (f := .map info key value) (by simp [Field.elements]))
    exact (keyKnown.append valueKnown).append (importsKnown_typing (by decide))
  | ordinary info =>
    simp only [Mapper.mapField, Result.bind_eq_ok] at result
    obtain ⟨base, isBase, result⟩ := result
    have known := (mapElement_imports isBase).mono (Field.element_refs (.ordinary info))
    split at result
    · cases result
      exact known.append (importsKnown_typing (by decide))
    · split at result
      · cases result
        exact known.append (importsKnown_typing (by decide))
      · cases result
        exact known

theorem generatedTransform_imports {ref : TypeRef} (own : isGoogleType ref.fullName ≠ true)
    {function : String} {transform : Transform}
    (result : mapper.generatedTransform ref function = .ok transform) :
    ImportsKnown mapper.scope [ref] transform.imports := by
  simp only [Mapper.generatedTransform, Result.bind_eq_ok, Result.pure_eq_ok] at result
  obtain ⟨conversion, _, rfl⟩ := result
  exact importsKnown_generatedName (List.mem_singleton_self ref) own function

theorem reader_imports {e : ElementType} {transform : Transform}
    (result : mapper.reader e = .ok transform) :
    ImportsKnown mapper.scope e.ref?.toList transform.imports := by
  cases e with
  | scalar | unknownScalar =>
    cases result
    exact .nil
  | enum ref =>
    simp only [Mapper.reader] at result
    split at result
    · cases result
      exact .nil
    · rename_i own
      exact generatedTransform_imports own result
  | message ref =>
    simp only [Mapper.reader] at result
    split at result
    · cases result
      exact importsKnown_wellKnown _
    · split at result
      · cases result
        exact (importsKnown_hostClass ref).append (.library .wellKnown)
      · rename_i own
        exact generatedTransform_imports own result
  | undeclared | missing => cases result

theorem writer_imports {e : ElementType} {transform : Transform}
    (result : mapper.writer e = .ok transform) :
    ImportsKnown mapper.scope e.ref?.toList transform.imports := by
  cases e with
  | scalar | unknownScalar =>
    cases result
    exact .nil
  | enum ref =>
    simp only [Mapper.writer] at result
    split at result
    · cases result
      exact .nil
    · rename_i own
      exact generatedTransform_imports own result
  | message ref =>
    simp only [Mapper.writer] at result
    split at result
    · cases result
      exact importsKnown_wellKnown _
    · split at result
      · cases result
        exact importsKnown_hostClass ref
      · rename_i own
        exact generatedTransform_imports own result
  | undeclared | missing => cases result

end Mapper

section Module

variable {mapper : Mapper} {m : Message}

theorem refs_of_converted (f : Field) : (convertedElement f).ref?.toList ⊆ f.refs :=
  Field.refs_of_element (List.mem_cons_of_mem _ (convertedElement_mem f))

theorem readField_imports {owner : Code.Expr} {f : Field} {value : Reference}
    (result : readField mapper owner f = .ok value) :
    ImportsKnown mapper.scope f.refs value.imports := by
  simp only [readField, Result.bind_eq_ok, Result.pure_eq_ok] at result
  obtain ⟨transform, found, rfl⟩ := result
  exact (reader_imports found).mono (refs_of_converted f)

theorem writeField_imports {owner source : Code.Expr} {f : Field} {statements : Statements}
    (result : writeField mapper owner source f = .ok statements) :
    ImportsKnown mapper.scope f.refs statements.imports := by
  simp only [writeField, Result.bind_eq_ok, Result.pure_eq_ok] at result
  obtain ⟨transform, found, rfl⟩ := result
  exact (writer_imports found).mono (refs_of_converted f)

theorem fieldAttribute_imports {f : Field} {a : Attribute} (result : fieldAttribute mapper f = .ok a) :
    ImportsKnown mapper.scope f.refs a.imports := by
  obtain ⟨_, mapped, found, _, _, imports⟩ := fieldAttribute_eq_ok result
  rw [imports]
  exact mapField_imports found

theorem memberAttribute_imports {member : Member} (isMember : member ∈ m.members) {a : Attribute}
    (result : memberAttribute mapper m member = .ok a) :
    ImportsKnown mapper.scope m.fieldRefs a.imports := by
  cases member with
  | field f =>
    exact (fieldAttribute_imports result).mono (Message.refs_of_field (Message.field_of_member isMember))
  | oneof o =>
    cases result
    exact importsKnown_typing (by decide)

theorem variantClass_imports {o : Oneof} {f : Field} {d : DataClass}
    (result : variantClass mapper m o f = .ok d) :
    ImportsKnown mapper.scope f.refs (Declaration.dataClass d).imports := by
  obtain ⟨_, noMethods, a, found, attributes⟩ := variantClass_eq_ok result
  simpa [Declaration.imports, noMethods, attributes] using fieldAttribute_imports found

theorem presenceMethods_imports : (presenceMethods m).flatMap (·.imports) = [] := by
  rw [List.flatMap_eq_nil_iff]
  intro f isMethod
  obtain ⟨field, _, rfl⟩ := List.mem_map.mp isMethod
  rfl

theorem messageDeclarations_imports {declarations : List Declaration}
    (result : messageDeclarations mapper m = .ok declarations) :
    ∀ d ∈ declarations, ImportsKnown mapper.scope m.fieldRefs d.imports := by
  intro d isDeclared
  cases declaredBy_of_mem result isDeclared with
  | variant isOneof isField found =>
    exact (variantClass_imports found).mono
      (Message.refs_of_field (Message.field_of_oneof isOneof isField))
  | union => exact importsKnown_typing (by decide)
  | message built =>
    refine ImportsKnown.append (.flatMap fun a isAttribute => ?_) ?_
    · obtain ⟨member, isMember, found⟩ := built.attributes.exists_left isAttribute
      exact memberAttribute_imports isMember found
    · rw [built.methods, presenceMethods_imports]
      exact .nil

theorem messageReader_imports {f : Function} (result : messageReader mapper m = .ok f) :
    ImportsKnown mapper.scope m.fieldRefs f.imports := by
  simp only [messageReader, Result.bind_eq_ok, Result.pure_eq_ok, eachMember_eq_ok] at result
  obtain ⟨arguments, ⟨_, walk⟩, rfl⟩ := result
  refine (importsKnown_hostClass m.ref).append (.flatMap fun a isArgument => ?_)
  obtain ⟨member, isMember, found⟩ := walk.exists_left isArgument
  cases member with
  | field f =>
    simp only [memberArgument, Result.bind_eq_ok, Result.pure_eq_ok] at found
    obtain ⟨value, isValue, rfl⟩ := found
    exact (readField_imports isValue).mono (Message.refs_of_field (Message.field_of_member isMember))
  | oneof o =>
    cases found
    exact .nil

theorem messageWriter_imports {f : Function} (result : messageWriter mapper m = .ok f) :
    ImportsKnown mapper.scope m.fieldRefs f.imports := by
  simp only [messageWriter, Result.bind_eq_ok, Result.pure_eq_ok, eachMember_eq_ok] at result
  obtain ⟨members, ⟨_, walk⟩, rfl⟩ := result
  refine (importsKnown_hostClass m.ref).append (.flatMap fun s isStatements => ?_)
  obtain ⟨member, isMember, found⟩ := walk.exists_left isStatements
  cases member with
  | field f =>
    exact (writeField_imports found).mono (Message.refs_of_field (Message.field_of_member isMember))
  | oneof o =>
    cases found
    exact .nil

theorem oneofReader_imports {o : Oneof} (isOneof : o ∈ m.oneofs) {f : Function}
    (result : oneofReader mapper m o = .ok f) :
    ImportsKnown mapper.scope m.fieldRefs f.imports := by
  simp only [oneofReader, Result.bind_eq_ok, Result.pure_eq_ok, Result.mapM_eq_ok] at result
  obtain ⟨cases, walk, rfl⟩ := result
  refine ((importsKnown_hostClass m.ref).append (.flatMap fun s isCase => ?_)).append
    (importsKnown_typing (by decide))
  obtain ⟨f, isField, found⟩ := walk.exists_left isCase
  simp only [caseReader, Result.bind_eq_ok, Result.pure_eq_ok] at found
  obtain ⟨transform, isReader, rfl⟩ := found
  exact ((reader_imports isReader).mono f.element_refs).mono
    (Message.refs_of_field (Message.field_of_oneof isOneof isField))

theorem caseBody_imports {f : Field} {body : Statements} (result : caseBody mapper f = .ok body) :
    ImportsKnown mapper.scope f.refs body.imports := by
  rw [caseBody] at result
  split at result
  · simp only [Result.bind_eq_ok, Result.pure_eq_ok] at result
    obtain ⟨transform, isWriter, rfl⟩ := result
    exact (writer_imports isWriter).mono f.element_refs
  · exact writeField_imports result

theorem oneofWriter_imports {o : Oneof} (isOneof : o ∈ m.oneofs) {f : Function}
    (result : oneofWriter mapper m o = .ok f) :
    ImportsKnown mapper.scope m.fieldRefs f.imports := by
  simp only [oneofWriter, Result.bind_eq_ok, Result.pure_eq_ok] at result
  obtain ⟨cases, found, rfl⟩ := result
  refine ((importsKnown_hostClass m.ref).append (.flatMap fun s isCase => ?_)).append
    (importsKnown_typing (by decide))
  obtain ⟨f, isField, isFirst, isWriter⟩ := caseWriters_mem found isCase
  simp only [caseWriter, Result.bind_eq_ok, Result.pure_eq_ok] at isWriter
  obtain ⟨body, isBody, rfl⟩ := isWriter
  exact (caseBody_imports isBody).mono
    (Message.refs_of_field (Message.field_of_oneof isOneof isField))

theorem messageFunctions_imports {functions : List Function}
    (result : messageFunctions mapper m = .ok functions) :
    ∀ f ∈ functions, ImportsKnown mapper.scope m.fieldRefs f.imports := by
  intro f isFunction
  cases convertedBy_of_mem result isFunction with
  | reader found => exact messageReader_imports found
  | writer found => exact messageWriter_imports found
  | oneofReader isOneof found => exact oneofReader_imports isOneof found
  | oneofWriter isOneof found => exact oneofWriter_imports isOneof found
  | toBytes => exact .nil
  | fromBytes => exact importsKnown_hostClass m.ref

theorem Module.imports_known {unit : FileUnit} {module : Module}
    (result : Module.ofUnit mapper unit = .ok module) :
    ImportsKnown mapper.scope unit.fieldRefs module.imports := by
  have ofMessage {m : Message} (isMessage : m ∈ unit.allMessages) : m.fieldRefs ⊆ unit.fieldRefs :=
    fun _ member => List.mem_flatMap.mpr ⟨m, isMessage, member⟩
  obtain ⟨declarations, functions, built⟩ := Module.ofUnit_eq_ok result
  have base : ImportsKnown mapper.scope unit.fieldRefs module.baseImports := by
    have ofEnums : ImportsKnown mapper.scope unit.fieldRefs [{ module := "enum" }] :=
      .library (.standard "enum" (by decide))
    have ofClasses : ImportsKnown mapper.scope unit.fieldRefs [{ module := "dataclasses" }] :=
      .library (.standard "dataclasses" (by decide))
    simp only [Module.ofUnit, Result.bind_eq_ok, Result.pure_eq_ok] at result
    obtain ⟨_, _, _, _, rfl⟩ := result
    apply ImportsKnown.append
    · split
      · exact .nil
      · exact ofEnums
    · split
      · exact .nil
      · exact ofClasses
  have declared : ImportsKnown mapper.scope unit.fieldRefs (module.declarations.flatMap (·.imports)) := by
    refine .flatMap fun d isDeclared => ?_
    rw [built.declarations] at isDeclared
    obtain ⟨chunk, isChunk, inChunk⟩ := List.mem_flatten.mp isDeclared
    obtain ⟨m, isMessage, found⟩ := built.declared.exists_left isChunk
    exact (messageDeclarations_imports found d inChunk).mono (ofMessage isMessage)
  have tables : ImportsKnown mapper.scope unit.fieldRefs (module.tables.flatMap (·.imports)) := by
    rw [built.tables]
    refine .flatMap fun t isTable => ?_
    obtain ⟨e, _, rfl⟩ := List.mem_map.mp isTable
    exact importsKnown_hostClass e.ref
  have converted : ImportsKnown mapper.scope unit.fieldRefs (module.functions.flatMap (·.imports)) := by
    refine .flatMap fun f isFunction => ?_
    rw [built.functions] at isFunction
    rcases List.mem_append.mp isFunction with ofEnum | converts
    · obtain ⟨e, _, isFunction⟩ := List.mem_flatMap.mp ofEnum
      simp only [enumFunctions, List.mem_cons, List.not_mem_nil, or_false] at isFunction
      rcases isFunction with rfl | rfl <;> exact .nil
    · obtain ⟨chunk, isChunk, inChunk⟩ := List.mem_flatten.mp converts
      obtain ⟨m, isMessage, found⟩ := built.converted.exists_left isChunk
      exact (messageFunctions_imports found f inChunk).mono (ofMessage isMessage)
  have parsers : ImportsKnown mapper.scope unit.fieldRefs (module.parsers.flatMap (·.imports)) := by
    rw [built.parsers]
    refine .flatMap fun p isParser => ?_
    obtain ⟨m, _, rfl⟩ := List.mem_map.mp isParser
    exact (importsKnown_hostClass m.ref).append (.library .parsers)
  exact (((base.append declared).append tables).append converted).append parsers

end Module

section Bound

def importEndings : List String :=
  ["dataclasses", "datetime", "enum", "Dict", "List", "Optional", "Union", "_wkt", "_parsers", "_pb2",
    "_idiom"]

theorem bound_ofModule (module : String) : (Import.ofModule module).bound = Name.moduleAlias module := by
  have kept : (some (Name.moduleAlias module)).filter (· ≠ "") = some (Name.moduleAlias module) := by
    simp [Name.moduleAlias]
  rw [Import.bound, Import.ofModule, kept]

theorem moduleAlias_append (start : String) {ending : String}
    (plain : Text.replaceChar '.' '_' ending = ending) :
    Name.moduleAlias (start ++ ending) = Name.moduleAlias start ++ ending := by
  have replaced : Text.replaceChar '.' '_' (start ++ ending) =
      Text.replaceChar '.' '_' start ++ Text.replaceChar '.' '_' ending := by
    simp [Text.replaceChar, ← String.toList_inj]
  rw [Name.moduleAlias, replaced, plain, Name.moduleAlias, String.append_assoc]

theorem intercalate_append_last (separator last ending : String) (parts : List String) :
    ∃ start, separator.intercalate (parts ++ [last ++ ending]) = start ++ ending := by
  induction parts with
  | nil => exact ⟨last, by simp⟩
  | cons part rest ih =>
    obtain ⟨start, same⟩ := ih
    refine ⟨part ++ separator ++ start, ?_⟩
    have nonempty : rest ++ [last ++ ending] ≠ [] := by simp
    obtain ⟨next, others, split⟩ := List.exists_cons_of_ne_nil nonempty
    rw [List.cons_append, split, String.intercalate_cons_cons, ← split, same]
    simp only [String.append_assoc]

theorem bound_host (file : String) :
    ∃ start, (Import.ofModule (Name.hostModule file)).bound = start ++ "_pb2" := by
  rw [bound_ofModule, Name.hostModule, moduleAlias_append _ (by decide +kernel)]
  exact ⟨_, rfl⟩

theorem bound_value (package file : String) (packagePrefix : Option String) :
    ∃ start, (Import.ofModule (Name.valueModule package file packagePrefix)).bound =
      start ++ "_idiom" := by
  obtain ⟨start, same⟩ := intercalate_append_last "." (Name.fileStem file) "_idiom"
    (Name.components (packagePrefix.getD "") ++ Name.components package)
  rw [bound_ofModule, Name.valueModule, Name.generatedModule, same,
    moduleAlias_append _ (by decide +kernel)]
  exact ⟨_, rfl⟩

theorem Library.bound_eq {i : Import} {id : String} (isLibrary : Library i id) : i.bound = id := by
  cases isLibrary with
  | standard _ known =>
    simp only [List.mem_cons, List.not_mem_nil, or_false] at known
    rcases known with rfl | rfl | rfl <;> decide +kernel
  | typing => rfl
  | wellKnown => rfl
  | parsers => rfl
  | host file => exact bound_ofModule _

theorem Library.ending {i : Import} {id : String} (isLibrary : Library i id) :
    ∃ ending ∈ importEndings, ∃ start, id = start ++ ending := by
  have whole {listed : List String} (subset : listed ⊆ importEndings) {name : String}
      (known : name ∈ listed) : ∃ ending ∈ importEndings, ∃ start, name = start ++ ending :=
    ⟨name, subset known, "", String.empty_append.symm⟩
  cases isLibrary with
  | standard _ known => exact whole (by decide) known
  | typing _ known => exact whole (by decide) known
  | wellKnown => exact ⟨"_wkt", by decide, "", rfl⟩
  | parsers => exact ⟨"_parsers", by decide, "", rfl⟩
  | host file =>
    rw [← bound_ofModule]
    exact ⟨"_pb2", by decide, bound_host file⟩

theorem Importable.named {i : Import} (importable : Importable scope refs i) : i.Named := by
  cases importable with
  | library isLibrary => exact isLibrary.named
  | generated ref _ _ _ => exact named_ofModule _

theorem Importable.ending {i : Import} (importable : Importable scope refs i) :
    ∃ ending ∈ importEndings, ∃ start, i.bound = start ++ ending := by
  cases importable with
  | library isLibrary =>
    rw [isLibrary.bound_eq]
    exact isLibrary.ending
  | generated ref _ _ _ =>
    exact ⟨"_idiom", by decide, bound_value ref.package ref.file scope.packagePrefix⟩

end Bound

end ProtoBindings.Value
