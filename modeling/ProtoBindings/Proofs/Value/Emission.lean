import ProtoBindings.Proofs.Resolver.Traversal
import ProtoBindings.Proofs.Value.Module
import ProtoBindings.Proofs.Value.Presence

namespace ProtoBindings.Value

open Code (Function)
open Schema (ElementType EnumType Field FileUnit Member Message Oneof)

def typesOf (mapper : Mapper) (messages : List Message) (enums : List EnumType) :
    Except Mapping.Error (List EnumClass × List Declaration) := do
  let declarations ← messages.mapM (messageDeclarations mapper)
  return (enums.map enumClass, declarations.flatten)

def conversionsOf (mapper : Mapper) (messages : List Message) (enums : List EnumType) :
    Except Mapping.Error (List EnumTables × List Function × List ParserConstant) := do
  let functions ← messages.mapM (messageFunctions mapper)
  return (enums.map enumTables, enums.flatMap enumFunctions ++ functions.flatten,
    messages.map parserConstant)

def memberFields (m : Message) : List Field :=
  m.members.filterMap fun
    | .field f => some f
    | .oneof _ => none

def emittedFields (m : Message) : List Field := memberFields m ++ m.oneofs.flatMap (·.fields)

def convertedElements (m : Message) : List ElementType :=
  (memberFields m).map convertedElement ++ m.oneofs.flatMap fun o => o.fields.map (·.element)

section Answers

variable {mapper : Mapper} {m : Message} {o : Oneof} {f : Field}

theorem mem_memberFields : f ∈ memberFields m ↔ .field f ∈ m.members := by
  rw [memberFields, List.mem_filterMap]
  constructor
  · rintro ⟨member, found, same⟩
    cases member with
    | field g =>
      cases same
      exact found
    | oneof o => cases same
  · exact fun found => ⟨_, found, rfl⟩

theorem eachMember_answers (complete : m.Complete) {β : Type} {treat : Member → Except Mapping.Error β}
    (oneofs : ∀ o, ∃ b, treat (.oneof o) = .ok b) :
    (∃ bs, eachMember m treat = .ok bs) ↔ ∀ f ∈ memberFields m, ∃ b, treat (.field f) = .ok b := by
  rw [eachMember_eq complete]
  simp only [Result.mapM_answers, mem_memberFields]
  constructor
  · exact fun each f found => each _ found
  · intro each member found
    cases member with
    | field f => exact each f found
    | oneof o => exact oneofs o

theorem fieldAttribute_answers :
    (∃ a, fieldAttribute mapper f = .ok a) ↔ ∀ e ∈ f.elements, mapper.Knows e := by
  rw [← Mapper.mapField_answers]
  exact Result.bind_pure_answers

theorem oneofDeclarations_answers : (∃ ds, oneofDeclarations mapper m o = .ok ds) ↔
    ∀ f ∈ o.fields, ∀ e ∈ f.elements, mapper.Knows e := by
  have variant (f : Field) : (∃ d, variantClass mapper m o f = .ok d) ↔ ∀ e ∈ f.elements, mapper.Knows e := by
    rw [← fieldAttribute_answers]
    exact Result.bind_pure_answers
  simp only [← variant, ← Result.mapM_answers]
  exact Result.bind_pure_answers

theorem messageDeclarations_answers (complete : m.Complete) : (∃ ds, messageDeclarations mapper m = .ok ds) ↔
    ∀ f ∈ emittedFields m, ∀ e ∈ f.elements, mapper.Knows e := by
  have attributes : (∃ as, eachMember m (memberAttribute mapper m) = .ok as) ↔
      ∀ f ∈ memberFields m, ∀ e ∈ f.elements, mapper.Knows e := by
    simp only [← fieldAttribute_answers]
    exact eachMember_answers complete fun o => ⟨oneofAttribute m o, rfl⟩
  have oneofs : (∃ ds, m.oneofs.mapM (oneofDeclarations mapper m) = .ok ds) ↔
      ∀ o ∈ m.oneofs, ∀ f ∈ o.fields, ∀ e ∈ f.elements, mapper.Knows e := by
    simp only [Result.mapM_answers, oneofDeclarations_answers]
  have steps : (∃ ds, messageDeclarations mapper m = .ok ds) ↔
      (∃ ds, m.oneofs.mapM (oneofDeclarations mapper m) = .ok ds) ∧
        ∃ as, eachMember m (memberAttribute mapper m) = .ok as :=
    Result.bind_answers fun _ => Result.bind_pure_answers
  rw [steps, oneofs, attributes, emittedFields, List.forall_mem_append, List.forall_mem_flatMap, and_comm]

theorem messageReader_answers (complete : m.Complete) : (∃ r, messageReader mapper m = .ok r) ↔
    ∀ f ∈ memberFields m, mapper.Spells (·.readerName) (convertedElement f) := by
  have argument (f : Field) : (∃ a, memberArgument mapper m (.field f) = .ok a) ↔
      mapper.Spells (·.readerName) (convertedElement f) :=
    Result.bind_pure_answers.trans readField_answers
  simp only [← argument]
  exact Result.bind_pure_answers.trans (eachMember_answers complete fun o => ⟨_, rfl⟩)

theorem messageWriter_answers (complete : m.Complete) : (∃ w, messageWriter mapper m = .ok w) ↔
    ∀ f ∈ memberFields m, mapper.Spells (·.writerName) (convertedElement f) := by
  have statements (f : Field) : (∃ s, memberStatements mapper m (.field f) = .ok s) ↔
      mapper.Spells (·.writerName) (convertedElement f) := writeField_answers
  simp only [← statements]
  exact Result.bind_pure_answers.trans (eachMember_answers complete fun o => ⟨_, rfl⟩)

theorem oneofReader_answers : (∃ r, oneofReader mapper m o = .ok r) ↔
    ∀ f ∈ o.fields, mapper.Spells (·.readerName) f.element := by
  have case (f : Field) : (∃ s, caseReader mapper m o f = .ok s) ↔
      mapper.Spells (·.readerName) f.element := by
    rw [← Mapper.reader_answers]
    exact Result.bind_pure_answers
  simp only [← case, ← Result.mapM_answers]
  exact Result.bind_pure_answers

theorem caseWriter_answers {isFirst : Bool} (ofMap : f.isMap = true → f.element.isMessage = true) :
    (∃ s, caseWriter mapper m o isFirst f = .ok s) ↔ mapper.Spells (·.writerName) f.element := by
  have body : (∃ s, caseWriter mapper m o isFirst f = .ok s) ↔ ∃ s, caseBody mapper f = .ok s :=
    Result.bind_pure_answers
  rw [body, caseBody]
  split
  · rw [← Mapper.writer_answers]
    exact Result.bind_pure_answers
  · rename_i single
    have sameElement : convertedElement f = f.element := by
      cases f with
      | ordinary info => rfl
      | map info key value => exact absurd (ofMap rfl) single
    rw [writeField_answers, sameElement]

theorem caseWriters_answers (ofMap : ∀ f ∈ o.fields, f.isMap = true → f.element.isMessage = true) :
    (∃ ss, caseWriters mapper m o = .ok ss) ↔ ∀ f ∈ o.fields, mapper.Spells (·.writerName) f.element := by
  rw [caseWriters]
  cases fields : o.fields with
  | nil => simp
  | cons first rest =>
    rw [fields, List.forall_mem_cons] at ofMap
    have others : (∃ ss, rest.mapM (caseWriter mapper m o false) = .ok ss) ↔
        ∀ f ∈ rest, mapper.Spells (·.writerName) f.element := by
      rw [Result.mapM_answers]
      exact forall₂_congr fun f member => caseWriter_answers (ofMap.2 f member)
    have head := @caseWriter_answers mapper m o first true ofMap.1
    rw [List.forall_mem_cons, ← head, ← others]
    exact Result.bind_answers fun _ => Result.bind_pure_answers

theorem oneofWriter_answers (ofMap : ∀ f ∈ o.fields, f.isMap = true → f.element.isMessage = true) :
    (∃ w, oneofWriter mapper m o = .ok w) ↔ ∀ f ∈ o.fields, mapper.Spells (·.writerName) f.element := by
  rw [← caseWriters_answers ofMap]
  exact Result.bind_pure_answers

theorem messageFunctions_answers (complete : m.Complete)
    (ofMap : ∀ o ∈ m.oneofs, ∀ f ∈ o.fields, f.isMap = true → f.element.isMessage = true) :
    (∃ fs, messageFunctions mapper m = .ok fs) ↔ ∀ e ∈ convertedElements m,
      mapper.Spells (·.readerName) e ∧ mapper.Spells (·.writerName) e := by
  have readers : (∃ rs, m.oneofs.mapM (oneofReader mapper m) = .ok rs) ↔
      ∀ o ∈ m.oneofs, ∀ f ∈ o.fields, mapper.Spells (·.readerName) f.element := by
    simp only [Result.mapM_answers, oneofReader_answers]
  have writers : (∃ ws, m.oneofs.mapM (oneofWriter mapper m) = .ok ws) ↔
      ∀ o ∈ m.oneofs, ∀ f ∈ o.fields, mapper.Spells (·.writerName) f.element := by
    rw [Result.mapM_answers]
    exact forall₂_congr fun o isOneof => oneofWriter_answers (ofMap o isOneof)
  have steps : (∃ fs, messageFunctions mapper m = .ok fs) ↔ (∃ r, messageReader mapper m = .ok r) ∧
      (∃ rs, m.oneofs.mapM (oneofReader mapper m) = .ok rs) ∧ (∃ w, messageWriter mapper m = .ok w) ∧
        ∃ ws, m.oneofs.mapM (oneofWriter mapper m) = .ok ws := by
    rw [messageFunctions]
    refine Result.bind_answers fun _ => Result.bind_answers fun _ => Result.bind_answers fun _ => ?_
    exact Result.bind_pure_answers
  rw [steps, messageReader_answers complete, readers, messageWriter_answers complete, writers]
  simp only [convertedElements, List.forall_mem_append, List.forall_mem_map, List.forall_mem_flatMap, forall_and]
  exact and_assoc.symm

end Answers

def Unites (mapper : Mapper) (m : Message) (o : Oneof) (declarations : List Declaration) : Prop :=
  ∃ cases, List.Forall₂ (fun f d => variantClass mapper m o f = .ok d) o.fields cases ∧
    declarations = cases.map .dataClass ++ [.union (oneofTypeName m o) (cases.map (·.name))]

/-- What is declared for a message: its real oneofs in turn, then its own class. -/
def DeclaredFor (mapper : Mapper) (m : Message) (declarations : List Declaration) : Prop :=
  ∃ oneofs own, List.Forall₂ (Unites mapper m) m.oneofs oneofs ∧ ClassBuilt mapper m own ∧
    declarations = oneofs.flatten ++ [.dataClass own]

/-- The functions of a message: its reader and its writer, each before those of its real oneofs, then
    one to bytes and one from bytes. -/
def ConvertedFor (mapper : Mapper) (m : Message) (functions : List Function) : Prop :=
  ∃ reader readers writer writers, messageReader mapper m = .ok reader ∧
    List.Forall₂ (fun o f => oneofReader mapper m o = .ok f) m.oneofs readers ∧
    messageWriter mapper m = .ok writer ∧
    List.Forall₂ (fun o f => oneofWriter mapper m o = .ok f) m.oneofs writers ∧
    functions = reader :: readers ++ writer :: writers ++ [bytesWriter m, bytesReader m]

/-- What is emitted for the types of a unit: the same parts for each of them, in the order in which the
    unit lists them. -/
structure Emitted (mapper : Mapper) (unit : FileUnit) : Prop where
  typesAnswer : (∃ types, typesOf mapper unit.allMessages unit.allEnums = .ok types) ↔
    ∀ m ∈ unit.allMessages, ∀ f ∈ emittedFields m, ∀ e ∈ f.elements, mapper.Knows e
  types : ∀ classes declarations,
    typesOf mapper unit.allMessages unit.allEnums = .ok (classes, declarations) →
      classes = unit.allEnums.map enumClass ∧
      ∃ parts, List.Forall₂ (DeclaredFor mapper) unit.allMessages parts ∧ declarations = parts.flatten
  conversionsAnswer :
    (∃ conversions, conversionsOf mapper unit.allMessages unit.allEnums = .ok conversions) ↔
      ∀ m ∈ unit.allMessages, ∀ e ∈ convertedElements m,
        mapper.Spells (·.readerName) e ∧ mapper.Spells (·.writerName) e
  conversions : ∀ tables functions parsers,
    conversionsOf mapper unit.allMessages unit.allEnums = .ok (tables, functions, parsers) →
      tables = unit.allEnums.map enumTables ∧
      (∃ parts, List.Forall₂ (ConvertedFor mapper) unit.allMessages parts ∧
        functions = unit.allEnums.flatMap (fun e => [enumReader e, enumWriter e]) ++ parts.flatten) ∧
      parsers = unit.allMessages.map parserConstant
  moduleAnswers : (∃ module, Module.ofUnit mapper unit = .ok module) ↔
    (∃ types, typesOf mapper unit.allMessages unit.allEnums = .ok types) ∧
      ∃ conversions, conversionsOf mapper unit.allMessages unit.allEnums = .ok conversions
  module : ∀ module, Module.ofUnit mapper unit = .ok module →
    typesOf mapper unit.allMessages unit.allEnums = .ok (module.enums, module.declarations) ∧
      conversionsOf mapper unit.allMessages unit.allEnums =
        .ok (module.tables, module.functions, module.parsers)

section Emitted

variable {mapper : Mapper} {m : Message}

theorem declaredFor_of_ok {declarations : List Declaration}
    (result : messageDeclarations mapper m = .ok declarations) : DeclaredFor mapper m declarations := by
  obtain ⟨oneofs, own, rfl, walk, built⟩ := messageDeclarations_eq_ok result
  exact ⟨oneofs, own, walk.imp fun _ _ => oneofDeclarations_eq_ok, built, rfl⟩

theorem convertedFor_of_ok {functions : List Function}
    (result : messageFunctions mapper m = .ok functions) : ConvertedFor mapper m functions := by
  obtain ⟨reader, readers, writer, writers, rfl, isReader, areReaders, isWriter, areWriters⟩ :=
    messageFunctions_eq_ok result
  exact ⟨reader, readers, writer, writers, isReader, areReaders, isWriter, areWriters, rfl⟩

variable {messages : List Message} {enums : List EnumType}

theorem typesOf_answers : (∃ types, typesOf mapper messages enums = .ok types) ↔
    ∃ declarations, messages.mapM (messageDeclarations mapper) = .ok declarations :=
  Result.bind_pure_answers

theorem conversionsOf_answers : (∃ conversions, conversionsOf mapper messages enums = .ok conversions) ↔
    ∃ functions, messages.mapM (messageFunctions mapper) = .ok functions :=
  Result.bind_pure_answers

/-- A case that holds a map field is written like one of a message type, which the entry of the map is. -/
theorem emitted {unit : FileUnit} (mapper : Mapper) (complete : ∀ m ∈ unit.allMessages, m.Complete)
    (ofMap : ∀ m ∈ unit.allMessages, ∀ o ∈ m.oneofs, ∀ f ∈ o.fields,
      f.isMap = true → f.element.isMessage = true) : Emitted mapper unit where
  typesAnswer := by
    rw [typesOf_answers, Result.mapM_answers]
    exact forall₂_congr fun m isMessage => messageDeclarations_answers (complete m isMessage)
  types classes declarations result := by
    simp only [typesOf, Result.bind_eq_ok, Result.pure_eq_ok, Result.mapM_eq_ok, Prod.mk.injEq] at result
    obtain ⟨parts, walk, rfl, rfl⟩ := result
    exact ⟨rfl, parts, walk.imp fun _ _ => declaredFor_of_ok, rfl⟩
  conversionsAnswer := by
    rw [conversionsOf_answers, Result.mapM_answers]
    exact forall₂_congr fun m isMessage => messageFunctions_answers (complete m isMessage) (ofMap m isMessage)
  conversions tables functions parsers result := by
    simp only [conversionsOf, Result.bind_eq_ok, Result.pure_eq_ok, Result.mapM_eq_ok, Prod.mk.injEq] at result
    obtain ⟨parts, walk, rfl, rfl, rfl⟩ := result
    exact ⟨rfl, ⟨parts, walk.imp fun _ _ => convertedFor_of_ok, rfl⟩, rfl⟩
  moduleAnswers := by
    rw [typesOf_answers, conversionsOf_answers]
    exact Result.bind_answers fun _ => Result.bind_pure_answers
  module module result := by
    simp only [Module.ofUnit, Result.bind_eq_ok, Result.pure_eq_ok] at result
    obtain ⟨declarations, declared, functions, converted, rfl⟩ := result
    rw [typesOf, declared, conversionsOf, converted]
    exact ⟨rfl, rfl⟩

end Emitted

theorem isMessage_of_map {table : Resolver.SymbolTable} {field : Descriptor.Field} {oneof : Option String}
    {depth : Nat} {f : Field} (built : Resolver.FieldBuilt table field oneof depth f)
    (isMap : f.isMap = true) : f.element.isMessage = true := by
  cases built with
  | scalar | named => cases isMap
  | map => rfl

/-- The unit of a file that is added lists the declared types, each once and inner ones first, and for
    each of them the same parts are emitted. -/
theorem emitted_once {resolver next : Resolver} {file : Descriptor.File} {unit : FileUnit}
    (distinct : ((Resolver.fileSymbols file).map (·.ref.fullName)).Nodup)
    (added : resolver.add file = (next, .ok unit)) (mapper : Mapper) :
    Resolver.Listed file unit ∧ Emitted mapper unit := by
  have ofUnit := Resolver.buildFile_eq_ok (Resolver.add_eq_ok added).1
  refine ⟨Resolver.listed_of_added distinct added, emitted mapper (fun m isMessage => ?_)
    fun m isMessage o isOneof f isField => ?_⟩
  · obtain ⟨_, _, _, _, whole⟩ := ofUnit.message isMessage
    exact whole.complete
  · obtain ⟨_, _, _, _, whole⟩ := ofUnit.message isMessage
    obtain ⟨_, _, _, built⟩ := whole.oneofField isOneof isField
    exact isMessage_of_map built

def atlasFile : Descriptor.File where
  name := "atlas.proto"
  messages := [
    { name := "Chart"
      fields := [
        { name := "title", number := 1, type := .scalar .string, oneofIndex := some 0 },
        { name := "side", number := 2, type := .enum, typeName := ".Side", oneofIndex := some 0 },
        { name := "notes", number := 3, type := .message, label := .repeated,
          typeName := ".Chart.NotesEntry" }]
      oneofs := ["label"]
      messages := [
        { name := "NotesEntry"
          fields := [{ name := "key", number := 1, type := .scalar .string },
            { name := "value", number := 2, type := .message, typeName := ".Chart.Sheet" }]
          isMapEntry := true },
        { name := "Sheet", messages := [{ name := "Corner" }], enums := [{ name := "Fold" }] },
        { name := "Legend" }] },
    { name := "Atlas", enums := [{ name := "Cover" }] }]
  enums := [{ name := "Side", values := [{ name := "LEFT" }] }]

theorem atlas_emitted_once : ((Resolver.fileSymbols atlasFile).map (·.ref.fullName)).Nodup ∧
    ∃ next unit, Resolver.add {} atlasFile = (next, .ok unit) ∧
      unit.messagePaths = [["Chart", "Sheet", "Corner"], ["Chart", "Sheet"], ["Chart", "Legend"], ["Chart"],
        ["Atlas"]] ∧
      unit.enumPaths = [["Side"], ["Chart", "Sheet", "Fold"], ["Atlas", "Cover"]] ∧
      (∃ module, Module.ofUnit (ownMapper atlasFile) unit = .ok module) ∧
      Resolver.Listed atlasFile unit ∧ Emitted (ownMapper atlasFile) unit := by
  have distinct : ((Resolver.fileSymbols atlasFile).map (·.ref.fullName)).Nodup := by decide
  obtain ⟨unit, returned, messages, enums, answers⟩ :
      ∃ unit, (Resolver.add {} atlasFile).2 = .ok unit ∧
        unit.messagePaths = [["Chart", "Sheet", "Corner"], ["Chart", "Sheet"], ["Chart", "Legend"], ["Chart"],
          ["Atlas"]] ∧
        unit.enumPaths = [["Side"], ["Chart", "Sheet", "Fold"], ["Atlas", "Cover"]] ∧
        (Module.ofUnit (ownMapper atlasFile) unit).toOption.isSome = true := by
    decide +kernel
  have added : Resolver.add {} atlasFile = ((Resolver.add {} atlasFile).1, .ok unit) := Prod.ext rfl returned
  exact ⟨distinct, _, unit, added, messages, enums, Result.exists_of_isSome answers,
    emitted_once distinct added _⟩

/-- Of two files that are added, one has a message for which there is no class, since the enum of a
    field has no value, and the other a message for which there are no functions, since their names
    cannot stand in a template. -/
theorem types_unemitted :
    (((Resolver.fileSymbols brushFile).map (·.ref.fullName)).Nodup ∧
      ∃ unit, (Resolver.add {} brushFile).2 = .ok unit ∧ unit.messagePaths = [["Brush"]] ∧
        (typesOf (ownMapper brushFile) unit.allMessages unit.allEnums).toOption = none) ∧
    ((Resolver.fileSymbols shareFile).map (·.ref.fullName)).Nodup ∧
      ∃ unit, (Resolver.add {} shareFile).2 = .ok unit ∧ unit.messagePaths = [["Share%"]] ∧
        (conversionsOf (ownMapper shareFile) unit.allMessages unit.allEnums).toOption = none := by
  refine ⟨⟨by decide, ?_⟩, by decide, ?_⟩
  · decide +kernel
  · decide +kernel

end ProtoBindings.Value
