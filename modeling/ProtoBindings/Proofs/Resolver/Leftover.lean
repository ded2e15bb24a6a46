import ProtoBindings.Proofs.Resolver.History
import ProtoBindings.Proofs.Resolver.Unit

namespace ProtoBindings.Resolver

open Schema (Field FileUnit TypeRef)

section Build

open Result (FailsOnly)

/-- A computation that reports no missing dependency. -/
abbrev PastDependencies {α : Type} (x : Except Error α) : Prop :=
  FailsOnly (·.isMissingDependency = false) x

variable {room : Room} {table : SymbolTable}

theorem pastDependencies_resolve (typeName context : String) :
    PastDependencies (table.resolve typeName context) := by
  rw [SymbolTable.resolve]
  split
  · exact .ok _
  · exact .error rfl

theorem pastDependencies_fieldNumbered (message : Descriptor.Message) (number : Nat) :
    PastDependencies (fieldNumbered message number) := by
  rw [fieldNumbered]
  split
  · exact .ok _
  · exact .error rfl

theorem pastDependencies_declaredOneof (oneofs : List String) (index : Int) :
    PastDependencies (declaredOneof oneofs index) := by
  simp only [declaredOneof]
  split
  · exact .ok _
  · exact .error rfl

theorem pastDependencies_buildFieldTo (depth : Nat) (field : Descriptor.Field) (context : String)
    (oneof : Option String) : PastDependencies (buildFieldTo table depth field context oneof) := by
  induction depth generalizing field context oneof with
  | zero => exact .error rfl
  | succ depth ih =>
    cases kind : field.type with
    | scalar type =>
      simp only [buildFieldTo, kind]
      exact .ok _
    | group | message | enum =>
      simp only [buildFieldTo, kind]
      have inPart {part : EntryPart} (e : Error) (past : e.isMissingDependency = false) :
          (e.inPart part).isMissingDependency = false := by
        cases e <;> exact past
      refine (pastDependencies_resolve _ _).bind fun s => ?_
      split
      · refine (pastDependencies_fieldNumbered _ _).bind fun keyField => ?_
        refine ((ih keyField _ _).mapError inPart).bind fun key => ?_
        refine (pastDependencies_fieldNumbered _ _).bind fun valueField => ?_
        exact ((ih valueField _ _).mapError inPart).bind fun value => .ok _
      · exact .ok _

theorem pastDependencies_placeField (depth : Nat) (message : Descriptor.Message) (fullName : String)
    (field : Descriptor.Field) : PastDependencies (placeField depth table message fullName field) := by
  refine FailsOnly.bind ?_ fun oneof => (pastDependencies_buildFieldTo _ _ _ _).bind fun built => .ok _
  cases realOneof? message field with
  | none => exact .ok _
  | some index => exact (pastDependencies_declaredOneof _ _).bind fun name => .ok _

theorem pastDependencies_declaredRef (file : Descriptor.File) (path : List String) :
    PastDependencies (declaredRef table file path) := by
  simp only [declaredRef]
  split
  · exact .ok _
  · exact .error rfl

theorem pastDependencies_buildEnum (file : Descriptor.File) (scope : List String)
    (e : Descriptor.Enum) : PastDependencies (buildEnum table file scope e) :=
  (pastDependencies_declaredRef file _).bind fun _ => .ok _

mutual

theorem pastDependencies_buildMessage (file : Descriptor.File) (scope : List String) :
    ∀ message, PastDependencies (buildMessage room table file scope message)
  | ⟨name, fields, oneofs, messages, enums, isMapEntry⟩ => by
    rw [buildMessage]
    refine (pastDependencies_declaredRef file _).bind fun ref => ?_
    refine (FailsOnly.mapM fun field => pastDependencies_placeField _ _ _ field).bind fun placed => ?_
    refine FailsOnly.bind ?_ fun builtOneofs => ?_
    · exact .mapM fun index => (pastDependencies_declaredOneof _ _).bind fun name => .ok _
    · refine (pastDependencies_buildMessages file _ messages).bind fun nested => ?_
      exact (FailsOnly.mapM fun e => pastDependencies_buildEnum file _ e).bind fun enums => .ok _

theorem pastDependencies_buildMessages (file : Descriptor.File) (scope : List String) :
    ∀ messages, PastDependencies (buildMessages room table file scope messages)
  | [] => .ok _
  | message :: rest => by
    rw [buildMessages]
    split
    · exact pastDependencies_buildMessages file scope rest
    · refine (pastDependencies_buildMessage file scope message).bind fun first => ?_
      exact (pastDependencies_buildMessages file scope rest).bind fun others => .ok _

end

theorem pastDependencies_buildMethod (service : String) (method : Descriptor.Method) :
    PastDependencies (buildMethod table service method) :=
  (pastDependencies_resolve _ _).bind fun _ => (pastDependencies_resolve _ _).bind fun _ => .ok _

theorem pastDependencies_buildFile (file : Descriptor.File) :
    PastDependencies (buildFile room table file) := by
  refine (pastDependencies_buildMessages file [] _).bind fun messages => ?_
  refine (FailsOnly.mapM fun e => pastDependencies_buildEnum file _ e).bind fun enums => ?_
  refine FailsOnly.bind ?_ fun services => .ok _
  refine .mapM fun service => FailsOnly.bind ?_ fun methods => .ok _
  exact .mapM fun method => pastDependencies_buildMethod _ method

end Build

/-- The file that a call made the resolver read in, whether it was built or not. -/
def readBy (event : Call × Except Error FileUnit) : Option Descriptor.File :=
  ((addedBy event).map (·.1)).or (abandonedBy event)

namespace History

def read (history : History) : List Descriptor.File := history.events.filterMap readBy

theorem mem_read {history : History} {file : Descriptor.File} :
    file ∈ history.read ↔ (∃ unit, (file, unit) ∈ history.added) ∨ file ∈ history.abandoned := by
  simp only [read, added, abandoned, List.mem_filterMap]
  constructor
  · rintro ⟨⟨call, result⟩, happened, isRead⟩
    rcases Option.or_eq_some_iff.mp isRead with isAdded | ⟨_, isAbandoned⟩
    · obtain ⟨⟨_, unit⟩, returned, rfl⟩ := Option.map_eq_some_iff.mp isAdded
      exact .inl ⟨unit, _, happened, returned⟩
    · exact .inr ⟨_, happened, isAbandoned⟩
  · rintro (⟨unit, event, happened, isAdded⟩ | ⟨⟨call, result⟩, happened, isAbandoned⟩)
    · exact ⟨event, happened, by simp [readBy, isAdded]⟩
    · have notAdded : addedBy (call, result) = none := by
        rcases call with file | name
        · rcases result with e | unit
          · rfl
          · cases isAbandoned
        · rfl
      exact ⟨_, happened, by simp [readBy, notAdded, isAbandoned]⟩

/-- The symbols are those of all files that were read in, and each unit was built from one of them. -/
structure Table (history : History) : Prop where
  symbols : history.resolver.symbols = .ofFiles history.read
  built : ∀ unit ∈ history.files, BuiltFrom history.read unit

theorem table (calls : List Call) : Table (of calls) := by
  refine History.induction (P := Table) ⟨rfl, fun _ member => absurd member List.not_mem_nil⟩ ?_ calls
  intro history next state step
  cases step with
  | idle event notAdded notAbandoned =>
    have nothing : readBy event = none := by simp [readBy, notAdded, notAbandoned]
    constructor
    · rw [read, filterMap_concat, nothing, Option.toList_none, List.append_nil]
      exact state.symbols
    · rw [read, filterMap_concat, nothing, Option.toList_none, List.append_nil]
      exact state.built
  | failed file error failed =>
    have isRead : readBy (.add file, .error error) = some file := by
      simp [readBy, addedBy, abandonedBy, pastDependencies_buildFile file error failed]
    constructor
    · rw [read, filterMap_concat, isRead, state.symbols, SymbolTable.extend_ofFiles]
      rfl
    · rw [read, filterMap_concat, isRead]
      exact fun unit member => (state.built unit member).append [file]
  | built file unit _ built =>
    rw [state.symbols, SymbolTable.extend_ofFiles] at built
    constructor
    · rw [read, filterMap_concat, state.symbols, SymbolTable.extend_ofFiles]
      rfl
    · rw [read, filterMap_concat]
      exact builtFrom_insertFile state.built built

end History

/-- What the references of a resolver lead to at any time. -/
structure Traced (history : History) : Prop where
  /-- A file that is added now can refer to what was declared by any file that was built or abandoned. -/
  known : ∀ name, (history.resolver.symbols.find? name).isSome = true ↔ ∃ file,
    ((∃ unit, (file, unit) ∈ history.added) ∨ file ∈ history.abandoned) ∧
      ∃ path d, file.Declares path d ∧ (refAt file path).fullName = name
  declared : ∀ unit ∈ history.files, ∀ ref ∈ unit.refs, ∃ file,
    ((∃ other, (file, other) ∈ history.added) ∨ file ∈ history.abandoned) ∧
      ∃ path d, file.Declares path d ∧ ref = refAt file path
  /-- If no abandoned file declares anything, they lead to declarations of files that have a unit, and
      this is the unit built from those if no name was added twice. -/
  clean : (∀ file ∈ history.abandoned, ∀ path d, ¬file.Declares path d) →
    ∀ unit ∈ history.files, ∀ ref ∈ unit.refs, ∃ file other, (file, other) ∈ history.added ∧
      (∃ path d, file.Declares path d ∧ ref = refAt file path) ∧ file.name ∈ history.names ∧
      ((history.added.map (·.1.name)).Nodup → other ∈ history.files)
  missing : ∀ file error, (history.resolver.add file).2 = .error error →
    error.isMissingDependency = true → (history.resolver.add file).1 = history.resolver
  /-- After an add that fails otherwise, all names that the file declares stand for something in it. -/
  left : ∀ file error, (history.resolver.add file).2 = .error error →
    error.isMissingDependency = false → ∀ path d, file.Declares path d → ∃ path' d',
      (history.resolver.add file).1.symbols.find? (refAt file path).fullName =
        some ⟨refAt file path', d'⟩

section Failed

variable {resolver : Resolver} {file : Descriptor.File} {error : Error}
  (failed : (resolver.add file).2 = .error error)
include failed

theorem add_missing (isMissing : error.isMissingDependency = true) :
    (resolver.add file).1 = resolver := by
  have attempt := add_attempt resolver file
  generalize resolver.add file = outcome at attempt failed
  cases attempt with
  | missing => rfl
  | failed _ _ notBuilt =>
    cases failed
    rw [pastDependencies_buildFile file _ notBuilt] at isMissing
    cases isMissing
  | built => cases failed

theorem add_leaves (notMissing : error.isMissingDependency = false) {path : List String}
    {d : Declaration} (declares : file.Declares path d) : ∃ path' d',
    (resolver.add file).1.symbols.find? (refAt file path).fullName = some ⟨refAt file path', d'⟩ := by
  have attempt := add_attempt resolver file
  generalize resolver.add file = outcome at attempt failed
  cases attempt with
  | missing =>
    cases failed
    cases notMissing
  | failed =>
    have isSymbol := Descriptor.File.mem_symbols_iff.mpr ⟨path, d, declares, rfl⟩
    have some : ((fileSymbols file).reverse.find?
        (·.ref.fullName == (refAt file path).fullName)).isSome = true :=
      List.find?_isSome.mpr ⟨_, List.mem_reverse.mpr isSymbol, beq_self_eq_true _⟩
    obtain ⟨s, found⟩ := Option.isSome_iff_exists.mp some
    have declared := List.mem_reverse.mp (List.mem_of_find?_eq_some found)
    obtain ⟨path', d', _, rfl⟩ := Descriptor.File.mem_symbols_iff.mp declared
    exact ⟨path', d', by rw [SymbolTable.find?, SymbolTable.extend, List.find?_append, found]; rfl⟩
  | built => cases failed

end Failed

theorem SymbolTable.find_ofFiles_isSome {files : List Descriptor.File} {name : String} :
    ((ofFiles files).find? name).isSome = true ↔ ∃ file ∈ files,
      ∃ path d, file.Declares path d ∧ (refAt file path).fullName = name := by
  constructor
  · intro some
    obtain ⟨s, found⟩ := Option.isSome_iff_exists.mp some
    obtain ⟨member, named⟩ := mem_of_find found
    obtain ⟨file, isFile, declared⟩ := mem_ofFiles.mp member
    obtain ⟨path, d, declares, rfl⟩ := Descriptor.File.mem_symbols_iff.mp declared
    exact ⟨file, isFile, path, d, declares, named⟩
  · rintro ⟨file, isFile, path, d, declares, rfl⟩
    have isSymbol := Descriptor.File.mem_symbols_iff.mpr ⟨path, d, declares, rfl⟩
    obtain ⟨s, found⟩ := find_isSome (mem_ofFiles.mpr ⟨file, isFile, isSymbol⟩)
    exact Option.isSome_iff_exists.mpr ⟨s, found⟩

theorem BuiltFrom.ref_declared {files : List Descriptor.File} {unit : FileUnit}
    (built : BuiltFrom files unit) {ref : TypeRef} (member : ref ∈ unit.refs) :
    ∃ file ∈ files, ∃ path d, file.Declares path d ∧ ref = refAt file path := by
  obtain ⟨before, file, after, rfl, built⟩ := built
  obtain ⟨g, isRead, declares⟩ := (buildFile_eq_ok built).ref_declared ref member
  exact ⟨g, by simp at isRead ⊢; tauto, declares⟩

theorem history_traced (calls : List Call) : Traced (.of calls) where
  known name := by
    rw [(History.table calls).symbols, SymbolTable.find_ofFiles_isSome]
    simp only [History.mem_read]
  declared unit isUnit ref member := by
    obtain ⟨file, isRead, declares⟩ := ((History.table calls).built unit isUnit).ref_declared member
    exact ⟨file, History.mem_read.mp isRead, declares⟩
  clean nothing unit isUnit ref member := by
    have grown := History.grown calls
    obtain ⟨file, isRead, path, d, declares, isRef⟩ :=
      ((History.table calls).built unit isUnit).ref_declared member
    rcases History.mem_read.mp isRead with ⟨other, isAdded⟩ | abandoned
    · refine ⟨file, other, isAdded, ⟨path, d, declares, isRef⟩, ?_, fun distinct => ?_⟩
      · rw [History.names, grown.names_eq, List.mem_eraseDups]
        exact List.mem_map_of_mem isAdded
      · rw [grown.files_eq distinct]
        exact List.mem_map_of_mem isAdded
    · exact absurd declares (nothing file abandoned path d)
  missing _ _ failed isMissing := add_missing failed isMissing
  left _ _ failed notMissing _ _ declares := add_leaves failed notMissing declares

def haunted : Descriptor.File where
  name := "haunted.proto"
  messages := [{ name := "House", fields := [
    { name := "ghost", number := 1, type := .message, typeName := ".Ghost" }] }]

def street : Descriptor.File where
  name := "street.proto"
  messages := [{ name := "Street", fields := [
    { name := "corner", number := 1, type := .message, typeName := ".House" }] }]

theorem street_refers_to_haunted :
    (History.of [.add haunted, .add street]).names = ["street.proto"] ∧
    ∃ unit ∈ (History.of [.add haunted, .add street]).files,
      ∃ ref ∈ unit.refs, ref.file = "haunted.proto" := by
  decide +kernel

end ProtoBindings.Resolver
