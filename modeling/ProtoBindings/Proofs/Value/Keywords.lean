import ProtoBindings.Proofs.Import.Keywords
import ProtoBindings.Proofs.Mapping.Keywords
import ProtoBindings.Proofs.Value.Module
import ProtoBindings.Proofs.Value.Oneofs

namespace ProtoBindings.Value

open Code (Expr Function Stmt)
open Name (IsWord KeywordFree isKeyword)
open Schema (EnumType Field FieldInfo FileUnit Member Message Oneof)

section Access

variable {owner source target : Expr} {name : String} {arguments : List Expr} {conversion : Conversion}

theorem keywordFree_hostField (free : KeywordFree owner.identifiers) :
    KeywordFree (hostField owner name).identifiers := by
  have function : isKeyword "getattr" = false := by decide
  unfold hostField
  split
  · simp [free, function]
  · simp_all

theorem keywordFree_assignHostField {value : Expr} (free : KeywordFree owner.identifiers)
    (ofValue : KeywordFree value.identifiers) :
    KeywordFree (assignHostField owner name value).identifiers := by
  have function : isKeyword "setattr" = false := by decide
  unfold assignHostField
  split
  · simp [Stmt.identifiers, free, ofValue, function]
  · simp_all [Stmt.identifiers]

@[simp] theorem keywordFree_invoke {method : String} :
    KeywordFree (invoke target method arguments).identifiers ↔ KeywordFree target.identifiers ∧
      isKeyword method = false ∧ ∀ e ∈ arguments, KeywordFree e.identifiers := by
  simp [invoke, and_assoc]

theorem keywordFree_item : KeywordFree (Expr.name "item").identifiers := by decide

variable (own : KeywordFree conversion.identifiers) (free : KeywordFree owner.identifiers)
include own free

theorem keywordFree_readWith (f : Field) : KeywordFree (readWith owner f conversion).identifiers := by
  have access := @keywordFree_hostField owner f.name free
  have eachItem := keywordFree_conversion own keywordFree_item
  have whole := keywordFree_conversion own access
  have fixed : KeywordFree ["dict", "list", "item", "key", "items", "HasField"] := by decide
  simp only [Name.keywordFree_cons] at fixed
  unfold readWith
  cases f with
  | map info key value =>
    dsimp only
    split
    · simp [access, fixed]
    · simp [Expr.identifiers, access, eachItem, fixed]
  | ordinary info =>
    dsimp only
    split
    · split
      · simp [access, fixed]
      · simp [Expr.identifiers, Code.Arguments.identifiers_ofList, access, eachItem, fixed]
    · split
      · simp [Expr.identifiers, isSet, free, whole, fixed, Expr.none]
      · exact whole

variable (taken : KeywordFree source.identifiers)
include taken

theorem keywordFree_writeSingle (info : FieldInfo) :
    KeywordFree (writeSingle owner source info conversion).identifiers := by
  have access := @keywordFree_hostField owner info.name free
  have value := keywordFree_conversion own taken
  have fixed : KeywordFree ["CopyFrom", "SetInParent"] := by decide
  simp only [Name.keywordFree_cons] at fixed
  unfold writeSingle
  split
  · split
    · simp [copyInto, Stmt.identifiers, access, value, fixed]
    · simp [markSet, Stmt.identifiers, access, fixed]
  · exact keywordFree_assignHostField free value

theorem keywordFree_writeWith (f : Field) :
    ∀ s ∈ writeWith owner source f conversion, KeywordFree s.identifiers := by
  have access := @keywordFree_hostField owner f.name free
  have eachItem := keywordFree_conversion own keywordFree_item
  have fixed : KeywordFree ["update", "extend", "item", "key", "items", "CopyFrom"] := by decide
  simp only [Name.keywordFree_cons] at fixed
  unfold writeWith
  cases f with
  | map info key value =>
    dsimp only
    split
    · simp [Stmt.identifiers, Code.Head.identifiers, copyInto, Expr.identifiers,
        Code.Arguments.identifiers_ofList, taken, access, eachItem, fixed]
    · split
      · simp [Stmt.identifiers, access, taken, fixed]
      · simp [Stmt.identifiers, Expr.identifiers, access, taken, eachItem, fixed]
  | ordinary info =>
    have single := keywordFree_writeSingle own free taken info
    dsimp only
    split
    · split
      · simp [Stmt.identifiers, access, taken, fixed]
      · simp [Stmt.identifiers, Expr.identifiers, access, taken, eachItem, fixed]
    · split
      · simp [Stmt.identifiers, Code.Head.identifiers, Expr.identifiers, taken, single]
      · simpa using single

end Access

structure OneofNamed (m : Message) (o : Oneof) : Prop where
  sum : isKeyword (oneofTypeName m o) = false
  variants : ∀ f ∈ o.fields, isKeyword (Name.variantName (oneofTypeName m o) f.name) = false

section Functions

variable {mapper : Mapper} {m : Message} {o : Oneof} {function : Function}

theorem keywordFree_messageName : KeywordFree messageName.identifiers := by decide

theorem keywordFree_valueName : KeywordFree valueName.identifiers := by decide

theorem keywordFree_valueAttribute (name : String) :
    KeywordFree (valueName.attribute (Name.escape name)).identifiers := by
  simp [keywordFree_valueName]

theorem readField_keywordFree {f : Field} {reference : Reference}
    (result : readField mapper messageName f = .ok reference) :
    KeywordFree reference.expr.identifiers := by
  simp only [readField, Result.bind_eq_ok, Result.pure_eq_ok] at result
  obtain ⟨transform, found, rfl⟩ := result
  exact keywordFree_readWith (Mapper.reader_keywordFree found) keywordFree_messageName f

theorem writeField_keywordFree {f : Field} {source : Expr} {statements : Statements}
    (taken : KeywordFree source.identifiers)
    (result : writeField mapper messageName source f = .ok statements) :
    ∀ s ∈ statements.body, KeywordFree s.identifiers := by
  simp only [writeField, Result.bind_eq_ok, Result.pure_eq_ok] at result
  obtain ⟨transform, found, rfl⟩ := result
  exact keywordFree_writeWith (Mapper.writer_keywordFree found) keywordFree_messageName taken f

theorem isKeyword_oneofHelper (ending : String) : isKeyword (oneofHelper m o ending) = false :=
  Name.isKeyword_of_underscore (by simp [oneofHelper])

theorem memberArgument_keywordFree {member : Member} {a : Argument}
    (result : memberArgument mapper m member = .ok a) :
    isKeyword a.name = false ∧ KeywordFree a.value.expr.identifiers := by
  cases member with
  | field f =>
    simp only [memberArgument, Result.bind_eq_ok, Result.pure_eq_ok] at result
    obtain ⟨reference, read, rfl⟩ := result
    exact ⟨Name.isKeyword_escape _, readField_keywordFree read⟩
  | oneof o =>
    cases result
    have helper : isKeyword (oneofReaderName m o) = false := isKeyword_oneofHelper _
    exact ⟨Name.isKeyword_escape _, by simp [helper, keywordFree_messageName]⟩

theorem memberStatements_keywordFree {member : Member} {statements : Statements}
    (result : memberStatements mapper m member = .ok statements) :
    ∀ s ∈ statements.body, KeywordFree s.identifiers := by
  cases member with
  | field f => exact writeField_keywordFree (keywordFree_valueAttribute _) result
  | oneof o =>
    cases result
    have helper : isKeyword (oneofWriterName m o) = false := isKeyword_oneofHelper _
    simp [Stmt.identifiers, helper, keywordFree_messageName, keywordFree_valueName]

theorem messageReader_keywordFree (path : KeywordFree m.ref.path)
    (result : messageReader mapper m = .ok function) : KeywordFree function.identifiers := by
  simp only [messageReader, Result.bind_eq_ok, Result.pure_eq_ok, eachMember_eq_ok] at result
  obtain ⟨arguments, ⟨_, walk⟩, rfl⟩ := result
  have parameter : isKeyword "message" = false := by decide
  have each : ∀ a ∈ arguments, isKeyword a.name = false ∧ KeywordFree a.value.expr.identifiers := by
    intro a isArgument
    obtain ⟨member, _, found⟩ := walk.exists_left isArgument
    exact memberArgument_keywordFree found
  rw [Code.keywordFree_function]
  simpa [Stmt.identifiers, Code.Arguments.identifiers_ofKeywords, parameter, path] using each

theorem messageWriter_keywordFree (path : KeywordFree m.ref.path)
    (result : messageWriter mapper m = .ok function) : KeywordFree function.identifiers := by
  simp only [messageWriter, Result.bind_eq_ok, Result.pure_eq_ok, eachMember_eq_ok] at result
  obtain ⟨members, ⟨_, walk⟩, rfl⟩ := result
  have parameter : isKeyword "value" = false := by decide
  have each : ∀ s, ∀ statements ∈ members, s ∈ statements.body → KeywordFree s.identifiers := by
    intro s statements isWritten inBody
    obtain ⟨member, _, found⟩ := walk.exists_left isWritten
    exact memberStatements_keywordFree found s inBody
  rw [Code.keywordFree_function]
  simp only [List.cons_append, List.forall_mem_cons, List.forall_mem_append]
  simpa [Stmt.identifiers, parameter, keywordFree_messageName, path] using each

section Oneof

variable (named : OneofNamed m o) (path : KeywordFree m.ref.path)
include named path

theorem oneofReader_keywordFree (result : oneofReader mapper m o = .ok function) :
    KeywordFree function.identifiers := by
  simp only [oneofReader, Result.bind_eq_ok, Result.pure_eq_ok, Result.mapM_eq_ok] at result
  obtain ⟨cases, walk, rfl⟩ := result
  have fixed : KeywordFree ["message", "Optional", "which", "WhichOneof"] := by decide
  simp only [Name.keywordFree_cons] at fixed
  have helper : isKeyword (oneofReaderName m o) = false := isKeyword_oneofHelper _
  have each : ∀ s, ∀ statements ∈ cases, s ∈ statements.body → KeywordFree s.identifiers := by
    intro s statements isCase inBody
    obtain ⟨f, isField, found⟩ := walk.exists_left isCase
    simp only [caseReader, Result.bind_eq_ok, Result.pure_eq_ok] at found
    obtain ⟨transform, read, rfl⟩ := found
    rw [List.mem_singleton.mp inBody]
    have content := keywordFree_conversion (Mapper.reader_keywordFree read)
      (@keywordFree_hostField _ f.name keywordFree_messageName)
    simp [Stmt.identifiers, Code.Head.identifiers, Expr.identifiers,
      Code.Arguments.identifiers_ofKeywords, fixed, content, named.variants f isField]
  rw [Code.keywordFree_function]
  simp only [List.cons_append, List.forall_mem_cons, List.forall_mem_append]
  simpa [Stmt.identifiers, fixed, helper, keywordFree_messageName, path, named.sum] using each

theorem oneofWriter_keywordFree (result : oneofWriter mapper m o = .ok function) :
    KeywordFree function.identifiers := by
  simp only [oneofWriter, Result.bind_eq_ok, Result.pure_eq_ok] at result
  obtain ⟨cases, walk, rfl⟩ := result
  have fixed : KeywordFree ["value", "message", "Optional", "TypeError", "isinstance", "CopyFrom",
    "SetInParent"] := by decide
  simp only [Name.keywordFree_cons] at fixed
  have helper : isKeyword (oneofWriterName m o) = false := isKeyword_oneofHelper _
  have each : ∀ s, ∀ statements ∈ cases, s ∈ statements.body → KeywordFree s.identifiers := by
    intro s statements isCase inBody
    obtain ⟨f, isField, isFirst, found⟩ := caseWriters_mem walk isCase
    simp only [caseWriter, Result.bind_eq_ok, Result.pure_eq_ok] at found
    obtain ⟨body, isBody, rfl⟩ := found
    rw [List.mem_singleton.mp inBody]
    have source := keywordFree_valueAttribute f.name
    have content : ∀ s ∈ body.body, KeywordFree s.identifiers := by
      unfold caseBody at isBody
      split at isBody
      · simp only [Result.bind_eq_ok, Result.pure_eq_ok] at isBody
        obtain ⟨transform, write, rfl⟩ := isBody
        have access := @keywordFree_hostField _ f.name keywordFree_messageName
        have converted := keywordFree_conversion (Mapper.writer_keywordFree write) source
        simp [Stmt.identifiers, Code.Head.identifiers, Expr.identifiers, markSet, copyInto, fixed, access,
          converted, keywordFree_valueName]
      · exact writeField_keywordFree source isBody
    cases isFirst <;>
      simpa [Stmt.identifiers, Code.Head.identifiers, fixed, keywordFree_valueName,
        named.variants f isField] using content
  rw [Code.keywordFree_function]
  simp only [List.cons_append, List.forall_mem_cons, List.forall_mem_append]
  simpa [Stmt.identifiers, Code.Head.identifiers, Expr.identifiers, unexpectedCase, fixed, helper,
    keywordFree_valueName, path, named.sum] using each

end Oneof

theorem ConvertedBy.keywordFree (named : ∀ o ∈ m.oneofs, OneofNamed m o) (path : KeywordFree m.ref.path)
    (converted : ConvertedBy mapper m function) : KeywordFree function.identifiers := by
  have fixed : KeywordFree ["value", "data", "bytes", "SerializeToString", "FromString"] := by decide
  simp only [Name.keywordFree_cons] at fixed
  have endings : isKeyword (m.ref.stem ++ "_to_bytes") = false ∧
      isKeyword (m.ref.stem ++ "_from_bytes") = false :=
    ⟨Name.isKeyword_of_underscore (by simp), Name.isKeyword_of_underscore (by simp)⟩
  cases converted with
  | reader result => exact messageReader_keywordFree path result
  | writer result => exact messageWriter_keywordFree path result
  | oneofReader isOneof result => exact oneofReader_keywordFree (named _ isOneof) path result
  | oneofWriter isOneof result => exact oneofWriter_keywordFree (named _ isOneof) path result
  | toBytes =>
    rw [Code.keywordFree_function]
    simp [bytesWriter, Stmt.identifiers, endings, fixed, keywordFree_valueName]
  | fromBytes =>
    rw [Code.keywordFree_function]
    simp [bytesReader, Stmt.identifiers, endings, fixed, path]

theorem keywordFree_presenceMethod (f : Field) : KeywordFree (presenceMethod f).identifiers := by
  have name : isKeyword ("has_" ++ f.name) = false := Name.isKeyword_of_underscore (by simp)
  have fixed : isKeyword "self" = false ∧ isKeyword "bool" = false := by decide
  rw [Code.keywordFree_function]
  simp [presenceMethod, Stmt.identifiers, Expr.identifiers, name, fixed]

end Functions

section Enums

variable (e : EnumType)

theorem isKeyword_fromHostName (constant : String) :
    isKeyword (EnumTables.fromHostName constant) = false :=
  Name.isKeyword_of_underscore (by simp [EnumTables.fromHostName])

theorem isKeyword_toHostName (constant : String) :
    isKeyword (EnumTables.toHostName constant) = false :=
  Name.isKeyword_of_underscore (by simp [EnumTables.toHostName])

theorem isKeyword_unrecognized : isKeyword Schema.unrecognized = false := by decide

theorem enumFunctions_keywordFree : ∀ f ∈ enumFunctions e, KeywordFree f.identifiers := by
  have fixed : KeywordFree ["number", "value", "int", "get"] := by decide
  simp only [Name.keywordFree_cons] at fixed
  simp [enumFunctions, Code.keywordFree_function, enumReader, enumWriter, Stmt.identifiers,
    Expr.identifiers, Code.Arguments.identifiers_ofList, fixed, isKeyword_fromHostName,
    isKeyword_toHostName, isKeyword_unrecognized]

def EnumClass.identifiers (e : EnumClass) : List String :=
  [e.name, "enum", "IntEnum"] ++ e.members.map (·.name)

theorem enumClass_keywordFree : KeywordFree (enumClass e).identifiers := by
  have fixed : isKeyword "enum" = false ∧ isKeyword "IntEnum" = false := by decide
  have members : ∀ member ∈ (enumClass e).members, isKeyword member.name = false := by
    intro member inClass
    rcases List.mem_append.mp inClass with isDeclared | isAdded
    · obtain ⟨value, _, rfl⟩ := List.mem_map.mp isDeclared
      exact Name.isKeyword_escape _
    · split at isAdded
      · cases isAdded
      · rw [List.mem_singleton.mp isAdded]
        exact isKeyword_unrecognized
  have name : isKeyword (enumClass e).name = false := isKeyword_className _
  simpa [EnumClass.identifiers, name, fixed] using members

def TableEntry.identifiers (entry : TableEntry) : List String := entry.member :: entry.host.identifiers

def EnumTables.identifiers (t : EnumTables) : List String :=
  [fromHostName t.constant, toHostName t.constant, t.className] ++
    (t.fromHost ++ t.toHost).flatMap (·.identifiers)

theorem enumTables_keywordFree_iff : KeywordFree (enumTables e).identifiers ↔
    ((∃ value ∈ e.values, value.name ≠ Schema.unrecognized) → KeywordFree e.ref.path) := by
  have value : isKeyword "Value" = false := by decide
  rw [EnumTables.identifiers, Name.keywordFree_append, Name.keywordFree_flatMap, enumTables]
  simp only [List.forall_mem_append, List.forall_mem_map, List.forall_mem_singleton, List.mem_filter]
  simp [TableEntry.identifiers, isKeyword_fromHostName, isKeyword_toHostName, isKeyword_unrecognized,
    value]

end Enums

section Classes

variable {mapper : Mapper} {m : Message} {o : Oneof} {f : Field} {a : Attribute} {c : DataClass}
  {declarations : List Declaration}

def Attribute.identifiers (a : Attribute) : List String :=
  a.name :: a.type.identifiers ++ a.default.identifiers

def DataClass.identifiers (c : DataClass) : List String :=
  ["dataclasses", "dataclass", "frozen", c.name] ++ c.attributes.flatMap (·.identifiers) ++
    c.methods.flatMap (·.identifiers)

def Declaration.identifiers : Declaration → List String
  | dataClass definition => definition.identifiers
  | union name variants => [name, "Union"] ++ variants

def attributeFields (m : Message) : List Field :=
  m.members.filterMap (fun | .field f => some f | .oneof _ => none) ++ m.oneofs.flatMap (·.fields)

theorem keywordFree_dataClass : KeywordFree c.identifiers ↔ isKeyword c.name = false ∧
    (∀ a ∈ c.attributes, KeywordFree a.identifiers) ∧ ∀ f ∈ c.methods, KeywordFree f.identifiers := by
  have fixed : KeywordFree ["dataclasses", "dataclass", "frozen"] := by decide
  simp only [Name.keywordFree_cons] at fixed
  simp [DataClass.identifiers, fixed]

theorem fieldAttribute_keywordFree_iff (result : fieldAttribute mapper f = .ok a) :
    KeywordFree a.identifiers ↔ f.Clear := by
  obtain ⟨name, mapped, found, type, default, _⟩ := fieldAttribute_eq_ok result
  obtain ⟨ofType, ofDefault⟩ := Mapper.mapField_keywordFree_iff found
  simpa [Attribute.identifiers, name, type, default, ofType] using ofDefault

theorem oneofAttribute_keywordFree_iff :
    KeywordFree (oneofAttribute m o).identifiers ↔ isKeyword (oneofTypeName m o) = false := by
  have optional : isKeyword "Optional" = false := by decide
  simp [Attribute.identifiers, oneofAttribute, optional]

theorem variantClass_keywordFree_iff (result : variantClass mapper m o f = .ok c) :
    KeywordFree c.identifiers ↔
      isKeyword (Name.variantName (oneofTypeName m o) f.name) = false ∧ f.Clear := by
  obtain ⟨name, methods, a, found, attributes⟩ := variantClass_eq_ok result
  rw [keywordFree_dataClass, name, methods, attributes, List.forall_mem_singleton,
    fieldAttribute_keywordFree_iff found]
  exact and_congr_right fun _ => and_iff_left (List.forall_mem_nil _)

theorem oneofDeclarations_keywordFree_iff (result : oneofDeclarations mapper m o = .ok declarations) :
    (∀ d ∈ declarations, KeywordFree d.identifiers) ↔ OneofNamed m o ∧ ∀ f ∈ o.fields, f.Clear := by
  obtain ⟨variants, walk, rfl⟩ := oneofDeclarations_eq_ok result
  have names : variants.map (·.name) = o.fields.map (Name.variantName (oneofTypeName m o) ·.name) :=
    (walk.map_eq fun f c found => (variantClass_eq_ok found).1.symm).symm
  have classes : (∀ c ∈ variants, KeywordFree c.identifiers) ↔ ∀ f ∈ o.fields,
      isKeyword (Name.variantName (oneofTypeName m o) f.name) = false ∧ f.Clear := by
    constructor
    · intro free f isField
      obtain ⟨c, isVariant, found⟩ := walk.exists_right isField
      exact (variantClass_keywordFree_iff found).mp (free c isVariant)
    · intro clear c isVariant
      obtain ⟨f, isField, found⟩ := walk.exists_left isVariant
      exact (variantClass_keywordFree_iff found).mpr (clear f isField)
  have union : KeywordFree (Declaration.union (oneofTypeName m o) (variants.map (·.name))).identifiers ↔
      OneofNamed m o := by
    have fixed : isKeyword "Union" = false := by decide
    simp only [Declaration.identifiers, names, List.cons_append, List.nil_append,
      Name.keywordFree_cons, Name.keywordFree_map, fixed, true_and]
    constructor
    · rintro ⟨sum, variants⟩
      exact ⟨sum, variants⟩
    · intro named
      exact ⟨named.sum, named.variants⟩
  rw [List.forall_mem_append, List.forall_mem_map, List.forall_mem_singleton, union]
  refine Iff.trans (and_congr_left' classes) ?_
  constructor
  · rintro ⟨both, named⟩
    exact ⟨named, fun f isField => (both f isField).2⟩
  · rintro ⟨named, clear⟩
    exact ⟨fun f isField => ⟨named.variants f isField, clear f isField⟩, named⟩

theorem ClassBuilt.keywordFree_iff (built : ClassBuilt mapper m c) : KeywordFree c.identifiers ↔
    (∀ f, .field f ∈ m.members → f.Clear) ∧
      ∀ o, .oneof o ∈ m.members → isKeyword (oneofTypeName m o) = false := by
  have methods : ∀ f ∈ c.methods, KeywordFree f.identifiers := by
    rw [built.methods, presenceMethods, List.forall_mem_map]
    exact fun f _ => keywordFree_presenceMethod f
  rw [keywordFree_dataClass, built.name]
  constructor
  · rintro ⟨_, free, _⟩
    constructor
    · intro f isMember
      obtain ⟨a, isAttribute, found⟩ := built.attributes.exists_right isMember
      exact (fieldAttribute_keywordFree_iff found).mp (free a isAttribute)
    · intro o isMember
      obtain ⟨a, isAttribute, found⟩ := built.attributes.exists_right isMember
      cases found
      exact oneofAttribute_keywordFree_iff.mp (free _ isAttribute)
  · rintro ⟨fields, oneofs⟩
    refine ⟨isKeyword_className _, fun a isAttribute => ?_, methods⟩
    obtain ⟨member, isMember, found⟩ := built.attributes.exists_left isAttribute
    cases member with
    | field f => exact (fieldAttribute_keywordFree_iff found).mpr (fields f isMember)
    | oneof o =>
      cases found
      exact oneofAttribute_keywordFree_iff.mpr (oneofs o isMember)

theorem forall_attributeFields {p : Field → Prop} : (∀ f ∈ attributeFields m, p f) ↔
    (∀ f, .field f ∈ m.members → p f) ∧ ∀ o ∈ m.oneofs, ∀ f ∈ o.fields, p f := by
  rw [attributeFields, List.forall_mem_append]
  refine and_congr ⟨fun all f isMember => ?_, fun all f isField => ?_⟩ List.forall_mem_flatMap
  · exact all f (List.mem_filterMap.mpr ⟨_, isMember, rfl⟩)
  · obtain ⟨member, isMember, same⟩ := List.mem_filterMap.mp isField
    cases member with
    | field g =>
      cases same
      exact all f isMember
    | oneof o => cases same

theorem messageDeclarations_keywordFree_iff (result : messageDeclarations mapper m = .ok declarations) :
    (∀ d ∈ declarations, KeywordFree d.identifiers) ↔
      (∀ o ∈ m.oneofs, OneofNamed m o) ∧ ∀ f ∈ attributeFields m, f.Clear := by
  obtain ⟨oneofs, c, rfl, walk, built⟩ := messageDeclarations_eq_ok result
  have ofOneofs : (∀ ds ∈ oneofs, ∀ d ∈ ds, KeywordFree d.identifiers) ↔
      ∀ o ∈ m.oneofs, OneofNamed m o ∧ ∀ f ∈ o.fields, f.Clear := by
    constructor
    · intro free o isOneof
      obtain ⟨ds, isChunk, found⟩ := walk.exists_right isOneof
      exact (oneofDeclarations_keywordFree_iff found).mp (free ds isChunk)
    · intro clear ds isChunk
      obtain ⟨o, isOneof, found⟩ := walk.exists_left isChunk
      exact (oneofDeclarations_keywordFree_iff found).mpr (clear o isOneof)
  rw [List.forall_mem_append, List.forall_mem_singleton, List.forall_mem_flatten,
    forall_attributeFields]
  refine (and_congr ofOneofs built.keywordFree_iff).trans ?_
  constructor
  · rintro ⟨oneofs, fields, _⟩
    exact ⟨fun o isOneof => (oneofs o isOneof).1, fields, fun o isOneof => (oneofs o isOneof).2⟩
  · rintro ⟨named, fields, cases⟩
    refine ⟨fun o isOneof => ⟨named o isOneof, cases o isOneof⟩, fields, fun o isMember => ?_⟩
    rcases Message.mem_members isMember with ⟨_, _, same⟩ | ⟨_, isOneof, same⟩
    · cases same
    · cases same
      exact (named o isOneof).sum

end Classes

section Named

variable {m : Message} {o : Oneof}

theorem oneofKey_empty_or_large (word : IsWord o.name) :
    oneofKey m o = "" ∨ ∃ c ∈ (oneofKey m o).toList, Name.isSmall c = false := by
  rw [oneofKey]
  split
  · exact .inr ⟨'O', by simp, by decide⟩
  · exact Name.pascalCase_empty_or_large word

theorem oneofNamed_iff (nonempty : m.ref.flatName ≠ "") (word : IsWord o.name)
    (words : ∀ f ∈ o.fields, IsWord f.name) : OneofNamed m o ↔
      (isKeyword m.ref.flatName = true → oneofKey m o ≠ "") := by
  have variant (f : Field) : Name.variantName (oneofTypeName m o) f.name =
      m.ref.flatName ++ (oneofKey m o ++ Name.pascalCase f.name) := by
    rw [Name.variantName, oneofTypeName_eq, String.append_assoc]
  rcases oneofKey_empty_or_large (m := m) word with empty | large
  · have sum : oneofTypeName m o = m.ref.flatName := by
      rw [oneofTypeName_eq, empty, String.append_empty]
    constructor
    · intro named keyword
      rw [← sum, named.sum] at keyword
      cases keyword
    · intro clear
      have free : isKeyword m.ref.flatName = false :=
        Bool.eq_false_iff.mpr fun keyword => clear keyword empty
      refine ⟨sum ▸ free, fun f isField => ?_⟩
      rw [variant, empty, String.empty_append]
      rcases Name.pascalCase_empty_or_large (words f isField) with none | large
      · rwa [none, String.append_empty]
      · exact Name.isKeyword_append nonempty large
  · obtain ⟨c, member, isLarge⟩ := large
    have distinct : oneofKey m o ≠ "" := by
      intro empty
      rw [empty] at member
      cases member
    refine iff_of_true ⟨?_, fun f _ => ?_⟩ fun _ => distinct
    · rw [oneofTypeName_eq]
      exact Name.isKeyword_append nonempty ⟨c, member, isLarge⟩
    · rw [variant]
      refine Name.isKeyword_append nonempty ⟨c, ?_, isLarge⟩
      rw [String.toList_append]
      exact List.mem_append_left _ member

end Named

section Module

def ParserConstant.identifiers (p : ParserConstant) : List String :=
  [p.name, "_parsers", "IdiomParser", p.valueClass, p.reader] ++ p.host.identifiers

def Module.identifiers (module : Module) : List String :=
  ["__future__", "annotations"] ++ module.imports.flatMap (·.identifiers) ++
    module.enums.flatMap (·.identifiers) ++ module.declarations.flatMap (·.identifiers) ++
    module.tables.flatMap (·.identifiers) ++ module.functions.flatMap (·.identifiers) ++
    module.parsers.flatMap (·.identifiers)

/-- What keeps keywords out of the definitions of a value module. -/
structure Clear (unit : FileUnit) : Prop where
  messages : ∀ m ∈ unit.allMessages, KeywordFree m.ref.path
  enums : ∀ e ∈ unit.allEnums, (∃ value ∈ e.values, value.name ≠ Schema.unrecognized) →
    KeywordFree e.ref.path
  fields : ∀ m ∈ unit.allMessages, ∀ f ∈ attributeFields m, f.Clear
  oneofs : ∀ m ∈ unit.allMessages, isKeyword m.ref.flatName = true → ∀ o ∈ m.oneofs, oneofKey m o ≠ ""

structure OneofWords (unit : FileUnit) : Prop where
  messages : ∀ m ∈ unit.allMessages, m.ref.flatName ≠ ""
  oneofs : ∀ m ∈ unit.allMessages, ∀ o ∈ m.oneofs, IsWord o.name
  fields : ∀ m ∈ unit.allMessages, ∀ o ∈ m.oneofs, ∀ f ∈ o.fields, IsWord f.name

instance (unit : FileUnit) : Decidable (Clear unit) :=
  decidable_of_iff ((∀ m ∈ unit.allMessages, KeywordFree m.ref.path) ∧
      (∀ e ∈ unit.allEnums, (∃ value ∈ e.values, value.name ≠ Schema.unrecognized) →
        KeywordFree e.ref.path) ∧
      (∀ m ∈ unit.allMessages, ∀ f ∈ attributeFields m, f.Clear) ∧
      ∀ m ∈ unit.allMessages, isKeyword m.ref.flatName = true → ∀ o ∈ m.oneofs, oneofKey m o ≠ "")
    ⟨fun ⟨messages, enums, fields, oneofs⟩ => ⟨messages, enums, fields, oneofs⟩,
      fun ⟨messages, enums, fields, oneofs⟩ => ⟨messages, enums, fields, oneofs⟩⟩

instance (unit : FileUnit) : Decidable (OneofWords unit) :=
  decidable_of_iff ((∀ m ∈ unit.allMessages, m.ref.flatName ≠ "") ∧
      (∀ m ∈ unit.allMessages, ∀ o ∈ m.oneofs, IsWord o.name) ∧
      ∀ m ∈ unit.allMessages, ∀ o ∈ m.oneofs, ∀ f ∈ o.fields, IsWord f.name)
    ⟨fun ⟨messages, oneofs, fields⟩ => ⟨messages, oneofs, fields⟩,
      fun ⟨messages, oneofs, fields⟩ => ⟨messages, oneofs, fields⟩⟩

theorem OneofWords.oneofNamed_iff {unit : FileUnit} (words : OneofWords unit) {m : Message}
    (isMessage : m ∈ unit.allMessages) : (∀ o ∈ m.oneofs, OneofNamed m o) ↔
      (isKeyword m.ref.flatName = true → ∀ o ∈ m.oneofs, oneofKey m o ≠ "") := by
  have each {o : Oneof} (isOneof : o ∈ m.oneofs) := Value.oneofNamed_iff
    (words.messages m isMessage) (words.oneofs m isMessage o isOneof) (words.fields m isMessage o isOneof)
  exact ⟨fun named keyword o isOneof => (each isOneof).mp (named o isOneof) keyword,
    fun clear o isOneof => (each isOneof).mpr fun keyword => clear keyword o isOneof⟩

theorem parserConstant_keywordFree_iff {m : Message} :
    KeywordFree (parserConstant m).identifiers ↔ KeywordFree m.ref.path := by
  have fixed : isKeyword "_parsers" = false ∧ isKeyword "IdiomParser" = false := by decide
  have name : isKeyword (m.ref.constantStem ++ "_PARSER") = false := Name.isKeyword_of_underscore (by simp)
  simp [ParserConstant.identifiers, parserConstant, fixed, name]

theorem Module.keywordFree_iff {mapper : Mapper} {unit : FileUnit} {module : Module}
    (words : OneofWords unit) (result : Module.ofUnit mapper unit = .ok module) :
    KeywordFree module.identifiers ↔
      Import.Clear mapper.scope.packagePrefix module.imports ∧ Clear unit := by
  obtain ⟨declarations, functions, built⟩ := Module.ofUnit_eq_ok result
  have imported := Import.keywordFree_imports_iff (Import.OfUnit.value result).known
  have future : isKeyword "__future__" = false ∧ isKeyword "annotations" = false := by decide
  have classes : ∀ e ∈ module.enums, KeywordFree e.identifiers := by
    rw [built.enums, List.forall_mem_map]
    exact fun e _ => enumClass_keywordFree e
  have tables : (∀ t ∈ module.tables, KeywordFree t.identifiers) ↔ ∀ e ∈ unit.allEnums,
      (∃ value ∈ e.values, value.name ≠ Schema.unrecognized) → KeywordFree e.ref.path := by
    rw [built.tables, List.forall_mem_map]
    exact forall₂_congr fun e _ => enumTables_keywordFree_iff e
  have parsers : (∀ p ∈ module.parsers, KeywordFree p.identifiers) ↔
      ∀ m ∈ unit.allMessages, KeywordFree m.ref.path := by
    rw [built.parsers, List.forall_mem_map]
    exact forall₂_congr fun m _ => parserConstant_keywordFree_iff
  have declared : (∀ d ∈ module.declarations, KeywordFree d.identifiers) ↔ ∀ m ∈ unit.allMessages,
      (∀ o ∈ m.oneofs, OneofNamed m o) ∧ ∀ f ∈ attributeFields m, f.Clear := by
    rw [built.declarations, List.forall_mem_flatten]
    constructor
    · intro free m isMessage
      obtain ⟨ds, isResult, found⟩ := built.declared.exists_right isMessage
      exact (messageDeclarations_keywordFree_iff found).mp (free ds isResult)
    · intro clear ds isResult
      obtain ⟨m, isMessage, found⟩ := built.declared.exists_left isResult
      exact (messageDeclarations_keywordFree_iff found).mpr (clear m isMessage)
  -- Functions add no condition of their own: what they name is declared by the classes.
  have converted (named : ∀ m ∈ unit.allMessages, ∀ o ∈ m.oneofs, OneofNamed m o)
      (paths : ∀ m ∈ unit.allMessages, KeywordFree m.ref.path) :
      ∀ f ∈ module.functions, KeywordFree f.identifiers := by
    intro f isFunction
    rcases built.convertedBy isFunction with ⟨e, _, ofEnum⟩ | ⟨m, isMessage, ofMessage⟩
    · exact enumFunctions_keywordFree e f ofEnum
    · exact ofMessage.keywordFree (named m isMessage) (paths m isMessage)
  simp only [identifiers, Name.keywordFree_append, Name.keywordFree_cons, Name.keywordFree_flatMap,
    Name.keywordFree_nil, future, tables, parsers, declared]
  rw [← Name.keywordFree_flatMap, imported]
  constructor
  · rintro ⟨⟨⟨⟨⟨⟨_, imports⟩, _⟩, declared⟩, enums⟩, _⟩, messages⟩
    refine ⟨imports, messages, enums, fun m isMessage => (declared m isMessage).2, fun m isMessage => ?_⟩
    exact (words.oneofNamed_iff isMessage).mp (declared m isMessage).1
  · rintro ⟨imports, clear⟩
    have named : ∀ m ∈ unit.allMessages, ∀ o ∈ m.oneofs, OneofNamed m o := fun m isMessage =>
      (words.oneofNamed_iff isMessage).mpr (clear.oneofs m isMessage)
    exact ⟨⟨⟨⟨⟨⟨by simp, imports⟩, classes⟩, fun m isMessage =>
      ⟨named m isMessage, clear.fields m isMessage⟩⟩, clear.enums⟩, converted named clear.messages⟩,
      clear.messages⟩

end Module

end ProtoBindings.Value
