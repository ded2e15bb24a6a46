import ProtoBindings.Proofs.Resolver.Members
import ProtoBindings.Proofs.Value.Failure
import ProtoBindings.Proofs.Value.Parts
import ProtoBindings.Proofs.Value.Written

namespace ProtoBindings.Value

open Code (Expr Stmt blockSource?)
open Schema (Field Member Message Oneof)

variable {mapper : Mapper} {m : Message}

/-- The class of a message has these attributes, its reader sets them and its writer takes them. -/
structure MembersAgree (mapper : Mapper) (m : Message) (names : List String) : Prop where
  declared : ∀ declarations, messageDeclarations mapper m = .ok declarations →
    ∃ definition, declarations.getLast? = some (.dataClass definition) ∧
      definition.name = m.ref.className ∧ definition.attributes.map (·.name) = names
  constructed : ∀ f, messageReader mapper m = .ok f →
    f.body.filterMap (·.returned?) = [(m.ref.className, names)]
  written : ∀ f, messageWriter mapper m = .ok f → f.body.filterMap (·.source?) = names

/-- A case of a oneof: the field, the class that stands for it and the one attribute of the class. -/
structure Case where
  field : String
  variant : String
  attr : String
  deriving DecidableEq

def oneofCase (m : Message) (o : Oneof) (field : String) : Case where
  field := field
  variant := Name.variantName (oneofTypeName m o) field
  attr := Name.escape field

/-- The classes of a oneof, its union, its reader and its writer have these cases, in this order. -/
structure CasesAgree (mapper : Mapper) (m : Message) (o : Oneof) (cases : List Case) : Prop where
  declared : ∀ declarations, oneofDeclarations mapper m o = .ok declarations →
    ∃ classes : List DataClass,
      declarations = classes.map .dataClass ++
        [.union (oneofTypeName m o) (cases.map (·.variant))] ∧
      classes.map (fun c => (c.name, c.attributes.map (·.name))) =
        cases.map fun c => (c.variant, [c.attr])
  read : ∀ f, oneofReader mapper m o = .ok f →
    f.body.filterMap (·.namedCase?) = cases.map fun c => (c.field, c.variant, [c.attr])
  written : ∀ f, oneofWriter mapper m o = .ok f →
    f.body.filterMap (·.classCase?) = cases.map fun c => (c.variant, c.attr)

section Members

variable {member : Member}

theorem memberArgument_name {argument : Argument}
    (result : memberArgument mapper m member = .ok argument) :
    argument.name = Name.escape member.name := by
  cases member with
  | field f =>
    simp only [memberArgument, Result.bind_eq_ok, Result.pure_eq_ok] at result
    obtain ⟨_, _, rfl⟩ := result
    rfl
  | oneof o =>
    cases result
    rfl

theorem writeField_source {attr : String} {f : Field} {statements : Statements}
    (result : writeField mapper messageName (valueName.attribute attr) f = .ok statements) :
    ∃ s, statements.body = [s] ∧ s.source? = some attr := by
  simp only [writeField, Result.bind_eq_ok, Result.pure_eq_ok] at result
  obtain ⟨transform, found, rfl⟩ := result
  exact writeWith_source attr f (Mapper.writer_avoids found) (Mapper.writer_hasHole found)

theorem memberStatements_source {statements : Statements}
    (result : memberStatements mapper m member = .ok statements) :
    ∃ s, statements.body = [s] ∧ s.source? = some (Name.escape member.name) := by
  cases member with
  | field f => exact writeField_source result
  | oneof o =>
    cases result
    exact ⟨_, rfl, source_of_attributes _ rfl⟩

theorem memberStatements_sources {members : List Member} {written : List Statements}
    (all : List.Forall₂ (fun member s => memberStatements mapper m member = .ok s) members written) :
    (written.flatMap (·.body)).filterMap (·.source?) =
      members.map fun member => Name.escape member.name := by
  induction all with
  | nil => rfl
  | cons first _ ih =>
    obtain ⟨s, body, source⟩ := memberStatements_source first
    rw [List.flatMap_cons, body, List.singleton_append, List.filterMap_cons_some source, ih,
      List.map_cons]

theorem source_newHost (ref : Schema.TypeRef) :
    (Stmt.assign messageName ((hostClass ref).expr.apply [])).source? = none := by
  have quiet : Code.attributesOf "value" (hostClass ref).expr.paths = [] :=
    attributesOf_hostClass (by decide) ref
  simp [Stmt.source?, blockSource?, Code.blockPaths, Stmt.paths, Expr.apply, Expr.paths,
    Code.Arguments.paths_ofList, quiet, Code.attributesOf_cons, Code.Path.attributeOf?, messageName]

end Members

theorem membersAgree (mapper : Mapper) (m : Message) :
    MembersAgree mapper m (m.members.map fun member => Name.escape member.name) where
  declared := by
    intro declarations result
    obtain ⟨oneofs, c, rfl, _, built⟩ := messageDeclarations_eq_ok result
    refine ⟨c, List.getLast?_concat, built.name, ?_⟩
    exact (built.attributes.map_eq fun member a result => (memberAttribute_name result).symm).symm
  constructed := by
    intro f result
    simp only [messageReader, Result.bind_eq_ok, Result.pure_eq_ok, eachMember_eq_ok] at result
    obtain ⟨arguments, ⟨_, walk⟩, rfl⟩ := result
    have names := walk.map_eq fun member argument result => (memberArgument_name result).symm
    simp [Stmt.returned?, Code.Arguments.keywords_ofKeywords, names, Function.comp_def]
  written := by
    intro f result
    simp only [messageWriter, Result.bind_eq_ok, Result.pure_eq_ok, eachMember_eq_ok] at result
    obtain ⟨written, ⟨_, walk⟩, rfl⟩ := result
    have last : (Stmt.ret messageName).source? = none := rfl
    rw [List.cons_append, List.filterMap_cons_none (source_newHost m.ref), List.filterMap_append,
      memberStatements_sources walk]
    simp [last]

section Cases

variable {o : Oneof} {f : Field}

theorem variantClass_eq {c : DataClass} (result : variantClass mapper m o f = .ok c) :
    c.name = (oneofCase m o f.name).variant ∧
      c.attributes.map (·.name) = [(oneofCase m o f.name).attr] := by
  obtain ⟨name, _, a, found, attributes⟩ := variantClass_eq_ok result
  refine ⟨name, ?_⟩
  rw [attributes, List.map_singleton, (fieldAttribute_eq_ok found).1]
  rfl

theorem caseReader_case {statements : Statements}
    (result : caseReader mapper m o f = .ok statements) :
    statements.body.filterMap (·.namedCase?) =
      [(f.name, (oneofCase m o f.name).variant, [(oneofCase m o f.name).attr])] := by
  simp only [caseReader, Result.bind_eq_ok, Result.pure_eq_ok] at result
  obtain ⟨transform, _, rfl⟩ := result
  rfl

theorem caseBody_source {statements : Statements} (result : caseBody mapper f = .ok statements) :
    blockSource? statements.body = some (Name.escape f.name) := by
  rw [caseBody] at result
  split at result
  · simp only [Result.bind_eq_ok, Result.pure_eq_ok] at result
    obtain ⟨transform, found, rfl⟩ := result
    have applied := attributesOf_applyTaken (Name.escape f.name) (Mapper.writer_avoids found)
    have copied : Code.attributesOf "value" (copyInto (hostField messageName f.name)
        (transform.conversion.apply (valueName.attribute (Name.escape f.name)))).paths =
          if transform.conversion.hasHole then [Name.escape f.name] else [] := by
      rw [attributesOf_copyInto _ (hostField_ne _) (attributesOf_hostField _), applied]
    rw [blockSource?, Code.blockPaths, Code.blockPaths, Code.blockPaths, Stmt.paths, Stmt.paths,
      Code.Head.paths, Code.Head.paths, Code.blockPaths, Code.blockPaths, Code.blockPaths,
      Code.blockPaths, Expr.paths]
    simp only [List.append_nil, List.nil_append, Code.attributesOf_append, attributesOf_taken,
      attributesOf_markSet, copied]
    cases transform.conversion.hasHole <;> simp
  · obtain ⟨s, body, source⟩ := writeField_source result
    rw [body]
    exact source

theorem caseWriter_case {isFirst : Bool} {statements : Statements}
    (result : caseWriter mapper m o isFirst f = .ok statements) :
    statements.body.filterMap (·.classCase?) =
      [((oneofCase m o f.name).variant, (oneofCase m o f.name).attr)] := by
  simp only [caseWriter, Result.bind_eq_ok, Result.pure_eq_ok] at result
  obtain ⟨body, found, rfl⟩ := result
  have source := caseBody_source found
  have tested : ((Expr.name "isinstance").apply
      [valueName, .name (Name.variantName (oneofTypeName m o) f.name)]).tested? =
        some (Name.variantName (oneofTypeName m o) f.name) := rfl
  cases isFirst <;> simp [Stmt.classCase?, tested, source, oneofCase]

theorem caseWriters_cases {written : List Statements} (result : caseWriters mapper m o = .ok written) :
    (written.flatMap (·.body)).filterMap (·.classCase?) =
      o.fields.map fun f => ((oneofCase m o f.name).variant, (oneofCase m o f.name).attr) := by
  rw [caseWriters] at result
  split at result
  · rename_i noFields
    cases result
    rw [noFields]
    rfl
  · rename_i first rest fields
    simp only [Result.bind_eq_ok, Result.pure_eq_ok, Result.mapM_eq_ok] at result
    obtain ⟨firstWritten, isFirst, restWritten, walk, rfl⟩ := result
    rw [fields, List.flatMap_cons, List.filterMap_append, caseWriter_case isFirst, List.map_cons,
      List.singleton_append, List.cons_inj_right]
    clear fields
    induction walk with
    | nil => rfl
    | cons next _ ih =>
      rw [List.flatMap_cons, List.filterMap_append, caseWriter_case next, ih]
      rfl

theorem caseReaders_cases {fields : List Field} {read : List Statements}
    (all : List.Forall₂ (fun f s => caseReader mapper m o f = .ok s) fields read) :
    (read.flatMap (·.body)).filterMap (·.namedCase?) =
      fields.map fun f =>
        (f.name, (oneofCase m o f.name).variant, [(oneofCase m o f.name).attr]) := by
  induction all with
  | nil => rfl
  | cons first _ ih =>
    rw [List.flatMap_cons, List.filterMap_append, caseReader_case first, ih]
    rfl

end Cases

theorem casesAgree (mapper : Mapper) (m : Message) (o : Oneof) :
    CasesAgree mapper m o (o.fields.map fun f => oneofCase m o f.name) where
  declared := by
    intro declarations result
    obtain ⟨classes, walk, rfl⟩ := oneofDeclarations_eq_ok result
    have names := walk.map_eq fun f c found => (variantClass_eq found).1.symm
    have whole := walk.map_eq fun f c found =>
      (Prod.ext (variantClass_eq found).1 (variantClass_eq found).2 :
        (c.name, c.attributes.map (·.name)) =
          ((oneofCase m o f.name).variant, [(oneofCase m o f.name).attr])).symm
    exact ⟨classes, by simp [names, Function.comp_def], by simp [whole, Function.comp_def]⟩
  read := by
    intro f result
    simp only [oneofReader, Result.bind_eq_ok, Result.pure_eq_ok, Result.mapM_eq_ok] at result
    obtain ⟨cases, walk, rfl⟩ := result
    have start : Stmt.namedCase? (.assign (.name "which")
        (invoke messageName "WhichOneof" [.string o.name])) = none := rfl
    have final : Stmt.namedCase? (.ret .none) = none := rfl
    rw [List.cons_append, List.filterMap_cons_none start, List.filterMap_append,
      caseReaders_cases walk]
    simp [final, Function.comp_def, oneofCase]
  written := by
    intro f result
    simp only [oneofWriter, Result.bind_eq_ok, Result.pure_eq_ok] at result
    obtain ⟨cases, walk, rfl⟩ := result
    have start : Stmt.classCase? (.compound (.ifTest (.isNone valueName)) [.leave]) = none := rfl
    have final : Stmt.classCase? (.compound .otherwise [unexpectedCase m o]) = none := rfl
    rw [List.cons_append, List.filterMap_cons_none start, List.filterMap_append,
      caseWriters_cases walk]
    simp [final, Function.comp_def]

/-- For every message that the resolver builds from a regular description, each declared name is found,
    class, reader and writer treat the members that the description has, and the cases of each real
    oneof are the fields that stand in it. -/
theorem built_message_agrees {room : Resolver.Room} {table : Resolver.SymbolTable} {file : Descriptor.File}
    {scope : List String} {message : Descriptor.Message} (regular : message.Regular)
    (built : Resolver.buildMessage room table file scope message = .ok m) (mapper : Mapper) :
    (∀ name ∈ m.declarationOrder, (m.plainField? name).isSome ∨ (m.oneofOf? name).isSome) ∧
    FailsAtTypes mapper m ∧
    MembersAgree mapper m (message.memberNames.map Name.escape) ∧
    (∀ o ∈ m.oneofs, ∃ index, message.oneofFields index ≠ [] ∧
      message.oneofs[index.toNat]? = some o.name ∧
      CasesAgree mapper m o ((message.oneofFields index).map fun f => oneofCase m o f.name)) ∧
    ∀ index, message.oneofFields index ≠ [] →
      ∃ o ∈ m.oneofs, message.oneofs[index.toNat]? = some o.name := by
  obtain ⟨placed, result⟩ := Resolver.buildMessage_eq_ok built
  refine ⟨fun name => result.lookup, failsAtTypes mapper result.complete, ?_, ?_, ?_⟩
  · have names : m.members.map (fun member => Name.escape member.name) =
        message.memberNames.map Name.escape := by
      rw [← result.members_names regular, List.map_map]
      rfl
    exact names ▸ membersAgree mapper m
  · intro o member
    obtain ⟨index, present, declared, names⟩ := result.oneof_regular regular member
    have cases : o.fields.map (fun f => oneofCase m o f.name) =
        (message.oneofFields index).map fun f => oneofCase m o f.name := by
      simpa [Function.comp_def] using congrArg (List.map (oneofCase m o)) names
    exact ⟨index, present, declared, cases ▸ casesAgree mapper m o⟩
  · intro index present
    obtain ⟨field, rest, fields⟩ := List.exists_cons_of_ne_nil present
    have isField : field ∈ message.oneofFields index := fields ▸ List.mem_cons_self
    obtain ⟨member, standing⟩ := List.mem_filter.mp isField
    obtain ⟨_, o, isOneof, _, declared⟩ := result.lookup_oneof regular member (beq_iff_eq.mp standing)
    exact ⟨o, isOneof, declared⟩

def reading : Descriptor.Message where
  name := "Reading"
  fields := [
    { name := "id", number := 1, type := .scalar .int32 },
    { name := "celsius", number := 2, type := .scalar .double, oneofIndex := some 0 },
    { name := "note", number := 3, type := .scalar .string, oneofIndex := some 1,
      isProto3Optional := true },
    { name := "kelvin", number := 4, type := .scalar .double, oneofIndex := some 0 },
    { name := "from", number := 5, type := .scalar .string }]
  oneofs := ["value", "_note"]

def readingFile : Descriptor.File where
  name := "reading.proto"
  package := "weather"
  messages := [reading]

theorem reading_regular : reading.Regular where
  fieldNames := by decide
  oneofNames := by decide
  inRange := by simp [reading]
  alone := by simp [reading]

theorem reading_agrees :
    reading.Regular ∧ ∃ m,
      Resolver.buildMessage Resolver.hostRoom (.ofFiles [readingFile]) readingFile [] reading = .ok m ∧
      MembersAgree ⟨{ file := "reading.proto", package := "weather" }, []⟩ m
        ["id", "value", "note", "from_"] ∧
      ∃ o ∈ m.oneofs, o.name = "value" := by
  refine ⟨reading_regular, ?_⟩
  have succeeds : (Resolver.buildMessage Resolver.hostRoom (.ofFiles [readingFile]) readingFile []
      reading).toOption.isSome := by
    decide +kernel
  obtain ⟨m, built⟩ := Result.exists_of_isSome succeeds
  obtain ⟨_, _, members, _, oneofs⟩ := built_message_agrees reading_regular built
    ⟨{ file := "reading.proto", package := "weather" }, []⟩
  obtain ⟨o, isOneof, named⟩ := oneofs 0 (by decide)
  exact ⟨m, built, members, o, isOneof, (Option.some.inj named).symm⟩

end ProtoBindings.Value
