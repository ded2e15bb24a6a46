import ProtoBindings.Proofs.Value.Failure
import ProtoBindings.Proofs.Value.Parts
import ProtoBindings.Proofs.Value.References

namespace ProtoBindings.Value

open Code (Arguments Expr Function Head Stmt blockBound blockPaths)
open Schema (Field FieldInfo Member Message Oneof)

theorem blockBound_eq_flatMap (body : List Stmt) : blockBound body = body.flatMap (·.bound) := by
  induction body with
  | nil => rfl
  | cons s rest ih => rw [blockBound, ih, List.flatMap_cons]

theorem blockBound_append (first second : List Stmt) :
    blockBound (first ++ second) = blockBound first ++ blockBound second := by
  simp [blockBound_eq_flatMap]

theorem bound_of_statements {list : List Statements} {locals : List String}
    (bound : blockBound (list.flatMap (·.body)) ⊆ locals) {statements : Statements}
    (member : statements ∈ list) : blockBound statements.body ⊆ locals := by
  intro id isBound
  rw [blockBound_eq_flatMap] at bound isBound
  obtain ⟨s, inBody, ofStatement⟩ := List.mem_flatMap.mp isBound
  have inList := List.mem_flatMap.mpr ⟨statements, member, inBody⟩
  exact bound (List.mem_flatMap.mpr ⟨s, inList, ofStatement⟩)

structure Closed (c : Context) (f : Function) : Prop where
  evaluated : f.evaluated = []
  annotated : c.Covers [] (f.params.flatMap (·.annotated))
  returns : c.Covers [] f.returns.paths
  body : ∀ locals, f.params.flatMap (·.bound) ⊆ locals → blockBound f.body ⊆ locals →
    c.Covers locals (blockPaths f.body)

variable {c : Context} {locals : List String}

theorem Closed.resolves {f : Function} (closed : Closed c f) : ∀ p ∈ f.deferred, c.Resolves p := by
  have body := closed.body f.locals (List.subset_append_left _ _) (List.subset_append_right _ _)
  have inside : c.Covers [] (Code.freePaths f.locals (blockPaths f.body)) :=
    Context.covers_freePaths (by simpa using body)
  refine Context.Covers.resolves ?_
  rw [Function.deferred, Function.annotationPaths, Context.covers_append, Context.covers_append]
  exact ⟨⟨closed.annotated, closed.returns⟩, inside⟩

namespace Context

theorem covers_block {body : List Stmt} :
    c.Covers locals (blockPaths body) ↔ ∀ s ∈ body, c.Covers locals s.paths := by
  rw [Code.blockPaths_eq_flatMap, covers_flatMap]

theorem covers_statements {list : List Statements} :
    c.Covers locals (blockPaths (list.flatMap (·.body))) ↔
      ∀ statements ∈ list, c.Covers locals (blockPaths statements.body) := by
  rw [Code.blockPaths_eq_flatMap, List.flatMap_assoc, covers_flatMap]
  simp only [Code.blockPaths_eq_flatMap]

theorem covers_own {id : String} (defined : id ∈ c.defined) :
    c.Covers locals (Expr.name id).paths := by
  simp [Expr.paths, Resolves.own id defined]

theorem reads_hostField (isLocal : "message" ∈ locals) (name : String) :
    c.Reads locals (hostField messageName name) := by
  have message : c.Reads locals messageName := reads_name isLocal
  unfold hostField
  by_cases keyword : Name.isKeyword name = true
  · rw [if_pos keyword]
    constructor
    · refine covers_call.mpr ⟨covers_builtin (by decide), fun e member => ?_⟩
      simp only [List.mem_cons, List.not_mem_nil, or_false] at member
      rcases member with rfl | rfl
      · exact message.paths
      · exact covers_nil
    · intro p dotted
      cases dotted
  · rw [if_neg keyword]
    exact message.attribute name

theorem covers_invoke {target : Expr} (reads : c.Reads locals target) {method : String}
    {arguments : List Expr} (covered : ∀ e ∈ arguments, c.Covers locals e.paths) :
    c.Covers locals (invoke target method arguments).paths :=
  covers_call.mpr ⟨(reads.attribute method).paths, covered⟩

theorem covers_each {conversion : Conversion} (own : c.Covers locals conversion.ownPaths)
    {bound : List String} (isBound : "item" ∈ bound) :
    c.Covers locals (Code.freePaths bound (conversion.apply (.name "item")).paths) := by
  have item : c.Reads (bound ++ locals) (.name "item") := reads_name (List.mem_append_left _ isBound)
  exact covers_freePaths (covers_conversion (own.mono (List.subset_append_right _ _)) item)

section Field

variable {conversion : Conversion} (own : c.Covers locals conversion.ownPaths)
  (message : "message" ∈ locals)
include own message

theorem covers_readWith (f : Field) :
    c.Covers locals (readWith messageName f conversion).paths := by
  have access := @reads_hostField c locals message f.name
  have applied (function : String) (isBuiltin : function ∈ builtins) :
      c.Covers locals ((Expr.name function).apply [hostField messageName f.name]).paths := by
    refine covers_call.mpr ⟨covers_builtin isBuiltin, List.forall_mem_singleton.mpr ?_⟩
    exact access.paths
  unfold readWith
  cases f with
  | map info key value =>
    by_cases same : conversion.isIdentity = true
    · simp only [same, if_true]
      exact applied "dict" (by decide)
    · simp only [same, Bool.false_eq_true, if_false]
      rw [Expr.paths, covers_append]
      exact ⟨covers_each own (by decide), access.paths⟩
  | ordinary info =>
    by_cases repeated : info.isRepeated = true
    · simp only [repeated, if_true]
      by_cases same : conversion.isIdentity = true
      · rw [if_pos same]
        exact applied "list" (by decide)
      · rw [if_neg same]
        simp only [Expr.paths, Arguments.paths_ofList, List.flatMap_cons, List.flatMap_nil,
          covers_append, covers_nil, and_true]
        exact ⟨covers_each own (by decide), access.paths⟩
    · simp only [repeated, Bool.false_eq_true, if_false]
      have single := covers_conversion own access
      by_cases presence : (Field.ordinary info).hasPresence = true
      · rw [if_pos presence, Expr.paths, covers_append, covers_append]
        have isSet : c.Covers locals (isSet messageName (Field.ordinary info).name).paths := by
          refine covers_invoke (reads_name message) (List.forall_mem_singleton.mpr ?_)
          exact covers_nil
        exact ⟨⟨single, isSet⟩, covers_nil⟩
      · rw [if_neg presence]
        exact single

variable {source : Expr} (taken : c.Reads locals source)
include taken

theorem covers_writeSingle (info : FieldInfo) :
    c.Covers locals (writeSingle messageName source info conversion).paths := by
  have access := @reads_hostField c locals message info.name
  have value := covers_conversion own taken
  unfold writeSingle
  by_cases isMessage : info.element.isMessage = true
  · rw [if_pos isMessage]
    by_cases hole : conversion.hasHole = true
    · rw [if_pos hole]
      refine covers_invoke access (List.forall_mem_singleton.mpr ?_)
      exact value
    · rw [if_neg hole]
      exact covers_invoke access (by simp)
  · rw [if_neg isMessage]
    unfold assignHostField
    by_cases keyword : Name.isKeyword info.name = true
    · rw [if_pos keyword]
      refine covers_call.mpr ⟨covers_builtin (by decide), fun e member => ?_⟩
      simp only [List.mem_cons, List.not_mem_nil, or_false] at member
      rcases member with rfl | rfl | rfl
      · exact (reads_name message).paths
      · exact covers_nil
      · exact value
    · rw [if_neg keyword, Stmt.paths, covers_append]
      exact ⟨((reads_name message).attribute info.name).paths, value⟩

omit own taken in
theorem covers_update (name method : String) {argument : Expr} (covered : c.Covers locals argument.paths) :
    c.Covers locals (blockPaths [.expr (invoke (hostField messageName name) method [argument])]) := by
  refine covers_block.mpr (List.forall_mem_singleton.mpr ?_)
  exact covers_invoke (reads_hostField message name) (List.forall_mem_singleton.mpr covered)

theorem covers_writeMap (info : FieldInfo) (key value : Field)
    (bound : blockBound (writeWith messageName source (.map info key value) conversion) ⊆ locals) :
    c.Covers locals (blockPaths (writeWith messageName source (.map info key value) conversion)) := by
  have access := @reads_hostField c locals message info.name
  unfold writeWith at bound ⊢
  by_cases isMessage : value.element.isMessage = true
  · simp only [isMessage, if_true, blockBound, Stmt.bound, Head.bound] at bound ⊢
    have isKey : "key" ∈ locals := bound (by simp)
    have isItem : "item" ∈ locals := bound (by simp)
    have target : c.Reads locals (.item (hostField messageName info.name) (.ofList [.name "key"])) := by
      refine ⟨?_, by intro p dotted; cases dotted⟩
      rw [Expr.paths, Arguments.paths_ofList, covers_append, covers_flatMap]
      exact ⟨access.paths, List.forall_mem_singleton.mpr (reads_name isKey).paths⟩
    have copied := covers_conversion own (reads_name isItem)
    simp only [blockPaths, Stmt.paths, Head.paths, List.append_nil, covers_append]
    exact ⟨taken.paths, covers_invoke target (List.forall_mem_singleton.mpr copied)⟩
  · simp only [isMessage, Bool.false_eq_true, if_false]
    by_cases same : conversion.isIdentity = true
    · rw [if_pos same]
      exact covers_update message info.name "update" taken.paths
    · rw [if_neg same]
      refine covers_update message info.name "update" ?_
      rw [Expr.paths, covers_append]
      exact ⟨covers_each own (by decide), taken.paths⟩

theorem covers_writeOrdinary (info : FieldInfo) :
    c.Covers locals (blockPaths (writeWith messageName source (.ordinary info) conversion)) := by
  have single := covers_writeSingle own message taken info
  unfold writeWith
  by_cases repeated : info.isRepeated = true
  · simp only [repeated, if_true]
    by_cases same : conversion.isIdentity = true
    · rw [if_pos same]
      exact covers_update message info.name "extend" taken.paths
    · rw [if_neg same]
      refine covers_update message info.name "extend" ?_
      rw [Expr.paths, covers_append]
      exact ⟨covers_each own (by decide), taken.paths⟩
  · simp only [repeated, Bool.false_eq_true, if_false]
    by_cases presence : (Field.ordinary info).hasPresence = true
    · rw [if_pos presence]
      simp only [blockPaths, Stmt.paths, Head.paths, Expr.paths, List.append_nil, covers_append]
      exact ⟨taken.paths, single⟩
    · rw [if_neg presence]
      simp only [blockPaths, List.append_nil]
      exact single

theorem covers_writeWith (f : Field)
    (bound : blockBound (writeWith messageName source f conversion) ⊆ locals) :
    c.Covers locals (blockPaths (writeWith messageName source f conversion)) := by
  cases f with
  | map info key value => exact covers_writeMap own message taken info key value bound
  | ordinary info => exact covers_writeOrdinary own message taken info

end Field

structure Defines (c : Context) (m : Message) : Prop where
  className : m.ref.className ∈ c.defined
  reader : m.ref.readerName ∈ c.defined
  writer : m.ref.writerName ∈ c.defined
  oneofType : ∀ o ∈ m.oneofs, oneofTypeName m o ∈ c.defined
  oneofReader : ∀ o ∈ m.oneofs, oneofReaderName m o ∈ c.defined
  oneofWriter : ∀ o ∈ m.oneofs, oneofWriterName m o ∈ c.defined
  variant : ∀ o ∈ m.oneofs, ∀ f ∈ o.fields,
    Name.variantName (oneofTypeName m o) f.name ∈ c.defined

end Context

section Message

variable {mapper : Mapper} {m : Message}

theorem readField_covers {f : Field} (served : ∀ e ∈ f.elements, c.Serves mapper e)
    {reference : Reference} (result : readField mapper messageName f = .ok reference)
    (imported : reference.imports ⊆ c.imports) (message : "message" ∈ locals) :
    c.Covers locals reference.expr.paths := by
  simp only [readField, Result.bind_eq_ok, Result.pure_eq_ok] at result
  obtain ⟨transform, found, rfl⟩ := result
  refine Context.covers_readWith ?_ message f
  exact Mapper.reader_covers (served _ (convertedElement_mem f)) found imported

theorem writeField_covers {f : Field} (served : ∀ e ∈ f.elements, c.Serves mapper e)
    {source : Expr} (taken : c.Reads locals source) {statements : Statements}
    (result : writeField mapper messageName source f = .ok statements)
    (imported : statements.imports ⊆ c.imports) (message : "message" ∈ locals)
    (bound : blockBound statements.body ⊆ locals) :
    c.Covers locals (blockPaths statements.body) := by
  simp only [writeField, Result.bind_eq_ok, Result.pure_eq_ok] at result
  obtain ⟨transform, found, rfl⟩ := result
  refine Context.covers_writeWith ?_ message taken f bound
  exact Mapper.writer_covers (served _ (convertedElement_mem f)) found imported

theorem caseWriters_mem {o : Oneof} {cases : List Statements}
    (result : caseWriters mapper m o = .ok cases)
    {statements : Statements} (isCase : statements ∈ cases) :
    ∃ f ∈ o.fields, ∃ isFirst, caseWriter mapper m o isFirst f = .ok statements := by
  unfold caseWriters at result
  split at result
  · cases result
    cases isCase
  · rename_i first rest fields
    simp only [Result.bind_eq_ok, Result.pure_eq_ok, Result.mapM_eq_ok] at result
    obtain ⟨ofFirst, found, ofRest, walk, rfl⟩ := result
    rcases List.mem_cons.mp isCase with rfl | isCase
    · exact ⟨first, by simp [fields], true, found⟩
    · obtain ⟨f, isField, result⟩ := walk.exists_left isCase
      exact ⟨f, by simp [fields, isField], false, result⟩

variable (defines : c.Defines m) (served : ∀ f ∈ m.allFields, ∀ e ∈ f.elements, c.Serves mapper e)

include defines served

theorem messageReader_closed {f : Function} (result : messageReader mapper m = .ok f)
    (imported : f.imports ⊆ c.imports) : Closed c f := by
  simp only [messageReader, Result.bind_eq_ok, Result.pure_eq_ok, eachMember_eq_ok] at result
  obtain ⟨arguments, ⟨_, walk⟩, rfl⟩ := result
  simp only [List.append_subset] at imported
  constructor
  · rfl
  · simpa [Code.Param.annotated, Code.Param.typed] using Context.covers_hostClass imported.1
  · exact Context.covers_own defines.className
  · intro locals params bound
    have message : "message" ∈ locals := params (by simp [Code.Param.bound, Code.Param.typed])
    simp only [blockPaths, Stmt.paths, List.append_nil, Context.covers_append,
      Arguments.paths_ofKeywords, Context.covers_flatMap]
    refine ⟨Context.covers_own defines.className, fun pair member => ?_⟩
    obtain ⟨a, isArgument, rfl⟩ := List.mem_map.mp member
    obtain ⟨member, isMember, result⟩ := walk.exists_left isArgument
    have ofArgument : a.value.imports ⊆ c.imports := fun i isImport =>
      imported.2 (List.mem_flatMap.mpr ⟨a, isArgument, isImport⟩)
    rcases Message.mem_members isMember with ⟨f, isField, rfl⟩ | ⟨o, isOneof, rfl⟩
    · simp only [memberArgument, Result.bind_eq_ok, Result.pure_eq_ok] at result
      obtain ⟨reference, read, rfl⟩ := result
      have ofField := served f (Message.mem_allFields.mpr (.inl isField))
      exact readField_covers ofField read ofArgument message
    · cases result
      refine Context.covers_call.mpr ⟨Context.covers_own (defines.oneofReader o isOneof), ?_⟩
      intro e member
      rw [List.mem_singleton.mp member]
      exact (Context.reads_name message).paths

theorem messageWriter_closed {f : Function} (result : messageWriter mapper m = .ok f)
    (imported : f.imports ⊆ c.imports) : Closed c f := by
  simp only [messageWriter, Result.bind_eq_ok, Result.pure_eq_ok, eachMember_eq_ok] at result
  obtain ⟨members, ⟨_, walk⟩, rfl⟩ := result
  simp only [List.append_subset] at imported
  constructor
  · rfl
  · exact Context.covers_own defines.className
  · exact Context.covers_hostClass imported.1
  · intro locals params bound
    have value : c.Reads locals valueName :=
      Context.reads_name (params (by simp [Code.Param.bound, Code.Param.typed]))
    simp only [List.cons_append, blockBound, blockBound_append, Stmt.bound, List.append_subset] at bound
    have message : "message" ∈ locals := bound.1 (by simp [messageName, Expr.assigned])
    simp only [List.cons_append, blockPaths, Code.blockPaths_append, Stmt.paths, List.append_nil,
      Context.covers_append, Context.covers_statements]
    have isMessage := (@Context.reads_name c locals _ message).paths
    refine ⟨⟨isMessage, ?_⟩, fun statements isStatement => ?_, isMessage⟩
    · exact Context.covers_call.mpr ⟨Context.covers_hostClass imported.1, by simp⟩
    · obtain ⟨member, isMember, result⟩ := walk.exists_left isStatement
      have ofMember : statements.imports ⊆ c.imports := fun i isImport =>
        imported.2 (List.mem_flatMap.mpr ⟨statements, isStatement, isImport⟩)
      have ownBound := bound_of_statements bound.2.1 isStatement
      rcases Message.mem_members isMember with ⟨f, isField, rfl⟩ | ⟨o, isOneof, rfl⟩
      · have ofField := served f (Message.mem_allFields.mpr (.inl isField))
        exact writeField_covers ofField (value.attribute _) result ofMember message ownBound
      · cases result
        refine Context.covers_block.mpr fun s isOnly => ?_
        rw [List.mem_singleton.mp isOnly]
        refine Context.covers_call.mpr ⟨Context.covers_own (defines.oneofWriter o isOneof), ?_⟩
        intro e member
        simp only [List.mem_cons, List.not_mem_nil, or_false] at member
        rcases member with rfl | rfl
        · exact (value.attribute _).paths
        · exact isMessage

section Oneof

variable {o : Oneof} (isOneof : o ∈ m.oneofs) (ordinary : ∀ f ∈ o.fields, f.isMap = false)
include isOneof

omit defines in
theorem served_element {f : Field} (isField : f ∈ o.fields) (single : f.isMap = false) :
    c.Serves mapper f.element := by
  have ofField := served f (Message.mem_allFields.mpr (.inr ⟨o, isOneof, isField⟩))
  cases f with
  | ordinary info => exact ofField info.element List.mem_cons_self
  | map info key value => cases single

theorem caseReader_covers {f : Field} (isField : f ∈ o.fields) (single : f.isMap = false)
    {statements : Statements} (result : caseReader mapper m o f = .ok statements)
    (imported : statements.imports ⊆ c.imports) (message : "message" ∈ locals)
    (which : "which" ∈ locals) : c.Covers locals (blockPaths statements.body) := by
  simp only [caseReader, Result.bind_eq_ok, Result.pure_eq_ok] at result
  obtain ⟨transform, found, rfl⟩ := result
  have own := @Mapper.reader_covers _ locals _ _ (served_element served isOneof isField single) _ found
    imported
  have value := Context.covers_conversion own (Context.reads_hostField message f.name)
  simp only [blockPaths, Stmt.paths, Head.paths, Expr.paths, Arguments.paths_ofKeywords,
    List.flatMap_cons, List.flatMap_nil, List.append_nil, Context.covers_append]
  refine ⟨(Context.reads_name which).paths, ?_, value⟩
  exact Context.covers_own (defines.variant o isOneof f isField)

omit served in
theorem oneofType_covers (imported : .typing "Optional" ∈ c.imports) :
    c.Covers locals (Expr.generic "Optional" [.name (oneofTypeName m o)]).paths := by
  refine Context.covers_typing (by decide) imported (List.forall_mem_singleton.mpr ?_)
  exact Context.covers_own (defines.oneofType o isOneof)

include ordinary

theorem oneofReader_closed {f : Function} (result : oneofReader mapper m o = .ok f)
    (imported : f.imports ⊆ c.imports) : Closed c f := by
  simp only [oneofReader, Result.bind_eq_ok, Result.pure_eq_ok, Result.mapM_eq_ok] at result
  obtain ⟨cases, walk, rfl⟩ := result
  simp only [List.append_subset, List.cons_subset] at imported
  constructor
  · rfl
  · simpa [Code.Param.annotated, Code.Param.typed] using Context.covers_hostClass imported.1.1
  · exact oneofType_covers defines isOneof imported.2.1
  · intro locals params bound
    have message : "message" ∈ locals := params (by simp [Code.Param.bound, Code.Param.typed])
    have which : "which" ∈ locals := bound (by simp [blockBound, Stmt.bound, Expr.assigned])
    have asked : c.Covers locals (invoke messageName "WhichOneof" [.string o.name]).paths := by
      refine Context.covers_invoke (Context.reads_name message) (List.forall_mem_singleton.mpr ?_)
      exact Context.covers_nil
    simp only [List.cons_append, blockPaths, Code.blockPaths_append, Stmt.paths, List.append_nil,
      Context.covers_append, Context.covers_statements]
    refine ⟨⟨(Context.reads_name which).paths, asked⟩, fun statements isCase => ?_, Context.covers_nil⟩
    obtain ⟨f, isField, result⟩ := walk.exists_left isCase
    have ofCase : statements.imports ⊆ c.imports := fun i isImport =>
      imported.1.2 (List.mem_flatMap.mpr ⟨statements, isCase, isImport⟩)
    exact caseReader_covers defines served isOneof isField (ordinary f isField) result ofCase message which

omit defines ordinary in
theorem caseBody_covers {f : Field} (isField : f ∈ o.fields) (single : f.isMap = false)
    {statements : Statements} (result : caseBody mapper f = .ok statements)
    (imported : statements.imports ⊆ c.imports) (message : "message" ∈ locals)
    (value : "value" ∈ locals) (bound : blockBound statements.body ⊆ locals) :
    c.Covers locals (blockPaths statements.body) := by
  have source : c.Reads locals (valueName.attribute (Name.escape f.name)) :=
    (Context.reads_name value).attribute _
  have access := @Context.reads_hostField c locals message f.name
  unfold caseBody at result
  by_cases isMessage : f.element.isMessage = true
  · simp only [isMessage, if_true, Result.bind_eq_ok, Result.pure_eq_ok] at result
    obtain ⟨transform, found, rfl⟩ := result
    have own := @Mapper.writer_covers _ locals _ _ (served_element served isOneof isField single) _
      found imported
    have copied := Context.covers_conversion own source
    simp only [blockPaths, Stmt.paths, Head.paths, Expr.paths, List.nil_append, List.append_nil,
      Context.covers_append]
    refine ⟨⟨source.paths, Context.covers_invoke access (by simp)⟩, ?_⟩
    refine Context.covers_invoke access (List.forall_mem_singleton.mpr ?_)
    exact copied
  · simp only [isMessage, Bool.false_eq_true, if_false] at result
    have ofField := served f (Message.mem_allFields.mpr (.inr ⟨o, isOneof, isField⟩))
    exact writeField_covers ofField source result imported message bound

theorem caseWriter_covers {isFirst : Bool} {f : Field} (isField : f ∈ o.fields)
    {statements : Statements} (result : caseWriter mapper m o isFirst f = .ok statements)
    (imported : statements.imports ⊆ c.imports) (message : "message" ∈ locals)
    (value : "value" ∈ locals) (bound : blockBound statements.body ⊆ locals) :
    c.Covers locals (blockPaths statements.body) := by
  simp only [caseWriter, Result.bind_eq_ok, Result.pure_eq_ok] at result
  obtain ⟨body, found, rfl⟩ := result
  simp only [blockBound, Stmt.bound, List.append_nil, List.append_subset] at bound
  have covered := caseBody_covers served isOneof isField (ordinary f isField) found imported message
    value bound.2
  have tested : c.Covers locals ((Expr.name "isinstance").apply
      [valueName, .name (Name.variantName (oneofTypeName m o) f.name)]).paths := by
    refine Context.covers_call.mpr ⟨Context.covers_builtin (by decide), fun e member => ?_⟩
    simp only [List.mem_cons, List.not_mem_nil, or_false] at member
    rcases member with rfl | rfl
    · exact (Context.reads_name value).paths
    · exact Context.covers_own (defines.variant o isOneof f isField)
  simp only [blockPaths, Stmt.paths, List.append_nil, Context.covers_append]
  refine ⟨?_, covered⟩
  cases isFirst
  · exact tested
  · exact tested

theorem oneofWriter_closed {f : Function} (result : oneofWriter mapper m o = .ok f)
    (imported : f.imports ⊆ c.imports) : Closed c f := by
  simp only [oneofWriter, Result.bind_eq_ok, Result.pure_eq_ok] at result
  obtain ⟨cases, walk, rfl⟩ := result
  simp only [List.append_subset, List.cons_subset] at imported
  constructor
  · rfl
  · have oneofType := @oneofType_covers c [] m defines o isOneof imported.2.1
    simp only [Code.Param.annotated, Code.Param.typed, List.flatMap_cons, List.flatMap_nil,
      Option.toList_some, List.append_nil, Context.covers_append]
    exact ⟨oneofType, Context.covers_hostClass imported.1.1⟩
  · exact Context.covers_nil
  · intro locals params bound
    have value : "value" ∈ locals := params (by simp [Code.Param.bound, Code.Param.typed])
    have message : "message" ∈ locals := params (by simp [Code.Param.bound, Code.Param.typed])
    simp only [List.cons_append, blockBound, blockBound_append, List.append_subset] at bound
    have ofValue := (@Context.reads_name c locals _ value).paths
    have raised : c.Covers locals (unexpectedCase m o).paths := by
      refine Context.covers_call.mpr ⟨Context.covers_builtin (by decide), List.forall_mem_singleton.mpr ?_⟩
      exact ofValue
    simp only [List.cons_append, blockPaths, Code.blockPaths_append, Stmt.paths, Head.paths, Expr.paths,
      List.append_nil, List.nil_append, Context.covers_append, Context.covers_statements]
    refine ⟨ofValue, fun statements isCase => ?_, raised⟩
    obtain ⟨f, isField, isFirst, result⟩ := caseWriters_mem walk isCase
    have ofCase : statements.imports ⊆ c.imports := fun i isImport =>
      imported.1.2 (List.mem_flatMap.mpr ⟨statements, isCase, isImport⟩)
    exact caseWriter_covers defines served isOneof ordinary isField result ofCase message value
      (bound_of_statements bound.2.1 isCase)

end Oneof

omit served in
theorem bytesWriter_closed : Closed c (bytesWriter m) := by
  constructor
  · rfl
  · exact Context.covers_own defines.className
  · exact Context.covers_builtin (by decide)
  · intro locals params bound
    have value : "value" ∈ locals := params (by simp [bytesWriter, Code.Param.bound, Code.Param.typed])
    have written : c.Covers locals ((Expr.name m.ref.writerName).apply [valueName]).paths := by
      refine Context.covers_call.mpr ⟨Context.covers_own defines.writer, List.forall_mem_singleton.mpr ?_⟩
      exact (Context.reads_name value).paths
    have reads : c.Reads locals ((Expr.name m.ref.writerName).apply [valueName]) :=
      ⟨written, by intro p dotted; cases dotted⟩
    simp only [bytesWriter, blockPaths, Stmt.paths, List.append_nil]
    exact Context.covers_invoke reads (by simp)

omit served in
theorem bytesReader_closed (imported : (hostClass m.ref).imports ⊆ c.imports) :
    Closed c (bytesReader m) := by
  constructor
  · rfl
  · exact Context.covers_builtin (by decide)
  · exact Context.covers_own defines.className
  · intro locals params bound
    have data : "data" ∈ locals := params (by simp [bytesReader, Code.Param.bound, Code.Param.typed])
    simp only [bytesReader, blockPaths, Stmt.paths, List.append_nil]
    refine Context.covers_call.mpr ⟨Context.covers_own defines.reader, List.forall_mem_singleton.mpr ?_⟩
    refine Context.covers_call.mpr ⟨Context.covers_hostAttribute imported _, List.forall_mem_singleton.mpr ?_⟩
    exact (Context.reads_name data).paths

theorem messageFunctions_closed (ordinary : ∀ o ∈ m.oneofs, ∀ f ∈ o.fields, f.isMap = false)
    {functions : List Function} (result : messageFunctions mapper m = .ok functions)
    (imported : functions.flatMap (·.imports) ⊆ c.imports) : ∀ f ∈ functions, Closed c f := by
  intro f member
  have ofFunction : f.imports ⊆ c.imports := fun i isImport =>
    imported (List.mem_flatMap.mpr ⟨f, member, isImport⟩)
  cases convertedBy_of_mem result member with
  | reader found => exact messageReader_closed defines served found ofFunction
  | writer found => exact messageWriter_closed defines served found ofFunction
  | oneofReader isOneof found =>
    exact oneofReader_closed defines served isOneof (ordinary _ isOneof) found ofFunction
  | oneofWriter isOneof found =>
    exact oneofWriter_closed defines served isOneof (ordinary _ isOneof) found ofFunction
  | toBytes => exact bytesWriter_closed defines
  | fromBytes => exact bytesReader_closed defines ofFunction

end Message

end ProtoBindings.Value
