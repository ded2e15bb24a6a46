import ProtoBindings.Proofs.Resolver.Members
import ProtoBindings.Proofs.Resolver.Unit

namespace ProtoBindings

namespace Descriptor

def Message.fieldsAt (message : Message) (number : Int) : List Field :=
  message.fields.filter (·.number == number)

/-- An entry as the schema compiler makes it: one key and one value, and neither is repeated. -/
structure Message.IsPair (entry : Message) : Prop where
  once : ∀ number ∈ [1, 2], (entry.fieldsAt number).length = 1
  single : ∀ number ∈ [1, 2], ∀ field ∈ entry.fieldsAt number, field.label ≠ .repeated

instance (entry : Message) : Decidable entry.IsPair :=
  decidable_of_iff ((∀ number ∈ [1, 2], (entry.fieldsAt number).length = 1) ∧
      ∀ number ∈ [1, 2], ∀ field ∈ entry.fieldsAt number, field.label ≠ .repeated)
    ⟨fun ⟨once, single⟩ => ⟨once, single⟩, fun ⟨once, single⟩ => ⟨once, single⟩⟩

def File.visibleFields (file : File) : List Field :=
  (file.nodes.filter (!·.isHidden)).flatMap (·.message.fields)

theorem File.mem_visibleFields {file : File} {field : Field} :
    field ∈ file.visibleFields ↔
      ∃ n ∈ file.nodes, n.isHidden = false ∧ field ∈ n.message.fields := by
  simp [visibleFields, and_assoc]

end Descriptor

namespace Resolver

open Descriptor (Node nodesOf)
open Schema (Field FileUnit Message)

theorem namesType_iff {field : Descriptor.Field} :
    NamesType field ↔ field.type = .group ∨ field.type = .message ∨ field.type = .enum := by
  rw [NamesType]
  cases field.type <;> simp

instance (field : Descriptor.Field) : Decidable (NamesType field) :=
  decidable_of_iff _ namesType_iff.symm

def entryOf? (table : SymbolTable) (field : Descriptor.Field) : Option Descriptor.Message :=
  if NamesType field then (table.find? (typeNameOf field)).bind fun s => s.entry? field.label else none

theorem entryOf?_eq_some {table : SymbolTable} {field : Descriptor.Field}
    {entry : Descriptor.Message} : entryOf? table field = some entry ↔
      NamesType field ∧ ∃ s, table.find? (typeNameOf field) = some s ∧
        s.entry? field.label = some entry := by
  rw [entryOf?, Option.ite_none_right_eq_some, Option.bind_eq_some_iff]

theorem label_of_entryOf {table : SymbolTable} {field : Descriptor.Field}
    {entry : Descriptor.Message} (ranges : entryOf? table field = some entry) :
    field.label = .repeated := by
  obtain ⟨_, s, _, isEntry⟩ := entryOf?_eq_some.mp ranges
  exact Symbol.repeated_of_entry isEntry

theorem resolve_eq_error {table : SymbolTable} {typeName context : String} {e : Error}
    (failed : table.resolve typeName context = .error e) :
    table.find? (Text.dropLeadingDots typeName) = none ∧ e = .undefinedType typeName context := by
  rw [SymbolTable.resolve] at failed
  split at failed
  · cases failed
  · rename_i absent
    cases failed
    exact ⟨absent, rfl⟩

theorem fieldNumbered_eq_error {message : Descriptor.Message} {number : Nat} {e : Error}
    (failed : fieldNumbered message number = .error e) :
    fieldNumbered? message number = none ∧ e = .missingEntryField number := by
  rw [fieldNumbered] at failed
  split at failed
  · cases failed
  · rename_i absent
    cases failed
    exact ⟨absent, rfl⟩

/-- How a field fails to come about: the counterpart of `FieldBuilt`. The key of an entry is built before
    its value is looked for. -/
inductive FieldFailed (table : SymbolTable) (field : Descriptor.Field) (context : String) :
    (depth : Nat) → Error → Prop
  | tooDeep : FieldFailed table field context 0 (.deepMapEntry [])
  | undefined {depth} : NamesType field → table.find? (typeNameOf field) = none →
      FieldFailed table field context (depth + 1) (.undefinedType field.typeName context)
  | absent {depth} (entry : Descriptor.Message) (number : Nat) : number = 1 ∨ number = 2 →
      entryOf? table field = some entry → fieldNumbered? entry number = none →
      FieldFailed table field context (depth + 1) (.missingEntryField number)
  | key {depth e} (entry : Descriptor.Message) (keyField : Descriptor.Field) :
      entryOf? table field = some entry → fieldNumbered? entry 1 = some keyField →
      buildFieldTo table depth keyField (context ++ ".key") none = .error e →
      FieldFailed table field context (depth + 1) (e.inPart .key)
  | value {depth e} (entry : Descriptor.Message) (keyField valueField : Descriptor.Field) (key : Field) :
      entryOf? table field = some entry → fieldNumbered? entry 1 = some keyField →
      buildFieldTo table depth keyField (context ++ ".key") none = .ok key →
      fieldNumbered? entry 2 = some valueField →
      buildFieldTo table depth valueField (context ++ ".value") none = .error e →
      FieldFailed table field context (depth + 1) (e.inPart .value)

theorem buildFieldTo_eq_error {table : SymbolTable} {depth : Nat} {field : Descriptor.Field}
    {context : String} {oneof : Option String} {e : Error}
    (failed : buildFieldTo table depth field context oneof = .error e) :
    FieldFailed table field context depth e := by
  cases depth with
  | zero =>
    cases failed
    exact .tooDeep
  | succ depth =>
    cases kind : field.type with
    | scalar type =>
      simp only [buildFieldTo, kind] at failed
      cases failed
    | group | message | enum =>
      have names : NamesType field := by simp [NamesType, kind]
      simp only [buildFieldTo, kind] at failed
      rcases Result.bind_eq_error.mp failed with failed | ⟨s, found, failed⟩
      · obtain ⟨absent, rfl⟩ := resolve_eq_error failed
        exact .undefined names absent
      · have found := resolve_eq_ok found
        split at failed
        · rename_i entry isEntry
          have ranges := entryOf?_eq_some.mpr ⟨names, s, found, isEntry⟩
          rcases Result.bind_eq_error.mp failed with failed | ⟨keyField, isKey, failed⟩
          · obtain ⟨absent, rfl⟩ := fieldNumbered_eq_error failed
            exact .absent entry 1 (.inl rfl) ranges absent
          have isKey := fieldNumbered?_of_ok isKey
          rcases Result.bind_eq_error.mp failed with failed | ⟨key, keyBuilt, failed⟩
          · obtain ⟨e, keyFailed, rfl⟩ := Result.mapError_eq_error.mp failed
            exact .key entry keyField ranges isKey keyFailed
          rcases Result.bind_eq_error.mp failed with failed | ⟨valueField, isValue, failed⟩
          · obtain ⟨absent, rfl⟩ := fieldNumbered_eq_error failed
            exact .absent entry 2 (.inr rfl) ranges absent
          have isValue := fieldNumbered?_of_ok isValue
          rcases Result.bind_eq_error.mp failed with failed | ⟨_, _, done⟩
          · obtain ⟨e, valueFailed, rfl⟩ := Result.mapError_eq_error.mp failed
            have keyBuilt := Result.mapError_eq_ok.mp keyBuilt
            exact .value entry keyField valueField key ranges isKey keyBuilt isValue valueFailed
          · cases done
        · cases failed

theorem placeField_eq_error {depth : Nat} {table : SymbolTable} {message : Descriptor.Message} {fullName : String}
    {field : Descriptor.Field} {e : Error}
    (failed : placeField depth table message fullName field = .error e) :
    (∃ index, realOneof? message field = some index ∧
      declaredOneof message.oneofs index = .error e) ∨
    ∃ oneof, buildFieldTo table depth field (fullName ++ "." ++ field.name) oneof = .error e := by
  rcases Result.bind_eq_error.mp failed with failed | ⟨oneof, _, failed⟩
  · refine .inl ?_
    cases standing : realOneof? message field with
    | none =>
      rw [standing] at failed
      cases failed
    | some index =>
      rw [standing, Option.mapM_some] at failed
      rcases Result.bind_eq_error.mp failed with failed | ⟨_, _, done⟩
      · exact ⟨index, rfl, failed⟩
      · cases done
  · rcases Result.bind_eq_error.mp failed with failed | ⟨_, _, done⟩
    · exact .inr ⟨oneof, failed⟩
    · cases done

/-- A oneof is built only for an index that was looked up already for one of its fields. -/
theorem buildOneof_succeeds {depth : Nat} {table : SymbolTable} {message : Descriptor.Message} {fullName : String}
    {placed : List PlacedField} {index : Int} {e : Error}
    (places : List.Forall₂ (fun field place => placeField depth table message fullName field = .ok place)
      message.fields placed) (used : index ∈ usedOneofs placed) :
    buildOneof message placed index ≠ .error e := by
  intro failed
  obtain ⟨place, isPlace, standing⟩ := mem_usedOneofs.mp used
  obtain ⟨field, _, built⟩ := places.exists_left isPlace
  obtain ⟨ofField, oneof, declared, _⟩ := placeField_eq_ok built
  rw [← ofField, standing, Option.mapM_some] at declared
  obtain ⟨name, found, _⟩ := Result.bind_eq_ok.mp declared
  rw [buildOneof, found] at failed
  cases failed

section Build

variable {room : Room} {table : SymbolTable} {file : Descriptor.File} {e : Error}

theorem declaredRef_succeeds {s : Symbol} (inTable : s ∈ table.newestFirst) {path : List String}
    (isRef : s.ref = refAt file path) : declaredRef table file path ≠ .error e := by
  obtain ⟨t, found⟩ := SymbolTable.find_isSome inTable
  rw [isRef] at found
  simp [declaredRef, found]

theorem buildEnum_succeeds {scope : List String} {enums : List Descriptor.Enum}
    (symbols : enumSymbols file scope enums ⊆ table.newestFirst) {d : Descriptor.Enum}
    (isEnum : d ∈ enums) : buildEnum table file scope d ≠ .error e := by
  intro failed
  have inTable := symbols (List.mem_map_of_mem isEnum)
  rcases Result.bind_eq_error.mp failed with failed | ⟨_, _, done⟩
  · exact declaredRef_succeeds inTable rfl failed
  · cases done

def FailsAtField (room : Room) (table : SymbolTable) (file : Descriptor.File) (e : Error) (n : Node) :
    Prop :=
  n.isHidden = false ∧ ∃ field ∈ n.message.fields,
    placeField (room.levels n.scope.length) table n.message (refAt file n.path).fullName field = .error e

mutual

theorem buildMessage_eq_error {scope : List String} : ∀ message : Descriptor.Message,
    messageSymbols file scope message ⊆ table.newestFirst → message.isMapEntry = false →
      buildMessage room table file scope message = .error e →
      ∃ n ∈ message.nodes scope false, FailsAtField room table file e n
  | ⟨name, fields, oneofs, messages, enums, isMapEntry⟩, symbols, notEntry, failed => by
    cases notEntry
    rw [messageSymbols, List.append_subset, List.cons_subset] at symbols
    obtain ⟨⟨ownSymbol, nestedSymbols⟩, enumsSymbols⟩ := symbols
    simp only [Descriptor.Message.nodes, Bool.or_false, List.mem_append, List.mem_singleton]
    rw [buildMessage] at failed
    rcases Result.bind_eq_error.mp failed with failed | ⟨_, _, failed⟩
    · exact absurd failed (declaredRef_succeeds ownSymbol rfl)
    rcases Result.bind_eq_error.mp failed with failed | ⟨placed, places, failed⟩
    · obtain ⟨field, isField, failed⟩ := Result.mapM_eq_error failed
      exact ⟨_, .inr rfl, rfl, field, isField, failed⟩
    rcases Result.bind_eq_error.mp failed with failed | ⟨_, _, failed⟩
    · obtain ⟨index, used, failed⟩ := Result.mapM_eq_error failed
      exact absurd failed (buildOneof_succeeds (Result.mapM_eq_ok.mp places) used)
    rcases Result.bind_eq_error.mp failed with failed | ⟨_, _, failed⟩
    · obtain ⟨n, isNode, found⟩ := buildMessages_eq_error messages nestedSymbols failed
      exact ⟨n, .inl isNode, found⟩
    rcases Result.bind_eq_error.mp failed with failed | ⟨_, _, done⟩
    · obtain ⟨d, isEnum, failed⟩ := Result.mapM_eq_error failed
      exact absurd failed (buildEnum_succeeds enumsSymbols isEnum)
    · cases done

theorem buildMessages_eq_error {scope : List String} : ∀ messages : List Descriptor.Message,
    messagesSymbols file scope messages ⊆ table.newestFirst →
      buildMessages room table file scope messages = .error e →
      ∃ n ∈ nodesOf scope false messages, FailsAtField room table file e n
  | [], _, failed => by cases failed
  | message :: rest, symbols, failed => by
    rw [messagesSymbols, List.append_subset] at symbols
    obtain ⟨firstSymbols, restSymbols⟩ := symbols
    rw [buildMessages] at failed
    rw [nodesOf]
    split at failed
    · obtain ⟨n, isNode, found⟩ := buildMessages_eq_error rest restSymbols failed
      exact ⟨n, List.mem_append_right _ isNode, found⟩
    · rename_i notEntry
      rcases Result.bind_eq_error.mp failed with failed | ⟨_, _, failed⟩
      · obtain ⟨n, isNode, found⟩ := buildMessage_eq_error message firstSymbols (by simpa using notEntry)
          failed
        exact ⟨n, List.mem_append_left _ isNode, found⟩
      rcases Result.bind_eq_error.mp failed with failed | ⟨_, _, done⟩
      · obtain ⟨n, isNode, found⟩ := buildMessages_eq_error rest restSymbols failed
        exact ⟨n, List.mem_append_right _ isNode, found⟩
      · cases done

end

/-- A build that fails does so at a field that would get a class or at a method. -/
theorem buildFile_eq_error (symbols : fileSymbols file ⊆ table.newestFirst)
    (failed : buildFile room table file = .error e) :
    (∃ n ∈ file.nodes, FailsAtField room table file e n) ∨
    ∃ service ∈ file.services, ∃ method ∈ service.methods,
      buildMethod table (Schema.qualify file.package service.name) method = .error e := by
  obtain ⟨messagesInTable, enumsInTable⟩ := List.append_subset.mp symbols
  rcases Result.bind_eq_error.mp failed with failed | ⟨_, _, failed⟩
  · exact .inl (buildMessages_eq_error file.messages messagesInTable failed)
  rcases Result.bind_eq_error.mp failed with failed | ⟨_, _, failed⟩
  · obtain ⟨d, isEnum, failed⟩ := Result.mapM_eq_error failed
    exact absurd failed (buildEnum_succeeds enumsInTable isEnum)
  rcases Result.bind_eq_error.mp failed with failed | ⟨_, _, done⟩
  · obtain ⟨service, isService, failed⟩ := Result.mapM_eq_error failed
    rcases Result.bind_eq_error.mp failed with failed | ⟨_, _, done⟩
    · obtain ⟨method, isMethod, failed⟩ := Result.mapM_eq_error failed
      exact .inr ⟨service, isService, method, isMethod, failed⟩
    · cases done
  · cases done

end Build

def tableFor (resolver : Resolver) (file : Descriptor.File) : SymbolTable :=
  resolver.symbols.extend (fileSymbols file)

theorem symbols_subset_tableFor (resolver : Resolver) (file : Descriptor.File) :
    fileSymbols file ⊆ (tableFor resolver file).newestFirst :=
  fun _ isSymbol => List.mem_append_left _ (List.mem_reverse.mpr isSymbol)

inductive Involves (table : SymbolTable) (field : Descriptor.Field) : Descriptor.Field → Prop
  | self : Involves table field field
  | inner (entry : Descriptor.Message) (number : Int) (inner : Descriptor.Field) :
      entryOf? table field = some entry → number ∈ [1, 2] → inner ∈ entry.fieldsAt number →
      Involves table field inner

/-- The type names that the build of a file looks up: those of the fields of messages that get a class,
    of the keys and the values of the entries that such fields range over, and of methods. -/
inductive Consults (table : SymbolTable) (file : Descriptor.File) : String → Prop
  | field (field inner : Descriptor.Field) : field ∈ file.visibleFields →
      Involves table field inner → NamesType inner → Consults table file (typeNameOf inner)
  | input (service : Descriptor.Service) (method : Descriptor.Method) : service ∈ file.services →
      method ∈ service.methods → Consults table file (Text.dropLeadingDots method.input)
  | output (service : Descriptor.Service) (method : Descriptor.Method) : service ∈ file.services →
      method ∈ service.methods → Consults table file (Text.dropLeadingDots method.output)

/-- A file whose oneof indices point at oneofs, and whose repeated fields use entries that are pairs. What
    is hidden in entries does not matter. -/
structure Sound (table : SymbolTable) (file : Descriptor.File) : Prop where
  inRange : ∀ n ∈ file.nodes, n.isHidden = false → ∀ field ∈ n.message.fields, ∀ index,
    field.oneofIndex = some index → 0 ≤ index ∧ index < n.message.oneofs.length
  pairs : ∀ field ∈ file.visibleFields, ∀ entry, entryOf? table field = some entry → entry.IsPair

instance (table : SymbolTable) (file : Descriptor.File) : Decidable (Sound table file) :=
  decidable_of_iff
    ((∀ n ∈ file.nodes, n.isHidden = false → ∀ field ∈ n.message.fields, ∀ index ∈ field.oneofIndex,
        0 ≤ index ∧ index < n.message.oneofs.length) ∧
      ∀ field ∈ file.visibleFields, ∀ entry ∈ entryOf? table field, entry.IsPair)
    ⟨fun ⟨inRange, pairs⟩ => ⟨inRange, pairs⟩, fun ⟨inRange, pairs⟩ => ⟨inRange, pairs⟩⟩

theorem find?_extend_eq_none {table : SymbolTable} {file : Descriptor.File} {name : String} :
    (table.extend (fileSymbols file)).find? name = none ↔ table.find? name = none ∧
      ∀ path d, file.Declares path d → (refAt file path).fullName ≠ name := by
  rw [SymbolTable.extend, SymbolTable.find?, List.find?_append, Option.or_eq_none_iff, and_comm]
  refine and_congr_right fun _ => ?_
  rw [List.find?_eq_none]
  constructor
  · intro absent path d declared same
    have isSymbol := Descriptor.File.mem_symbols_iff.mpr ⟨path, d, declared, rfl⟩
    exact absent _ (List.mem_reverse.mpr isSymbol) (by simpa using same)
  · intro absent s isSymbol same
    obtain ⟨path, d, declared, rfl⟩ :=
      Descriptor.File.mem_symbols_iff.mp (List.mem_reverse.mp isSymbol)
    exact absent path d declared (by simpa using same)

theorem declaredOneof_succeeds {oneofs : List String} {index : Int} {e : Error} (nonneg : 0 ≤ index)
    (inside : index < oneofs.length) : declaredOneof oneofs index ≠ .error e := by
  have here : index.toNat < oneofs.length := by omega
  have notNegative : ¬ index < 0 := by omega
  simp [declaredOneof, notNegative, List.getElem?_eq_getElem here]

end Resolver

section Pair

variable {entry : Descriptor.Message} (pair : entry.IsPair) {number : Nat}
  (known : number = 1 ∨ number = 2)
include pair known

theorem Descriptor.Message.IsPair.found :
    ∃ field, Resolver.fieldNumbered? entry number = some field ∧ entry.fieldsAt number = [field] := by
  have listed : (number : Int) ∈ [1, 2] := by
    rcases known with rfl | rfl <;> simp
  obtain ⟨field, alone⟩ := List.length_eq_one_iff.mp (pair.once _ listed)
  refine ⟨field, ?_, alone⟩
  rw [Resolver.fieldNumbered?, ← List.head?_filter, List.filter_reverse]
  rw [fieldsAt] at alone
  rw [alone]
  rfl

theorem Descriptor.Message.IsPair.alone {field : Field}
    (isField : Resolver.fieldNumbered? entry number = some field) :
    entry.fieldsAt number = [field] ∧ field.label ≠ .repeated := by
  have listed : (number : Int) ∈ [1, 2] := by
    rcases known with rfl | rfl <;> simp
  obtain ⟨other, found, alone⟩ := pair.found known
  obtain rfl : other = field := Option.some.inj (found.symm.trans isField)
  exact ⟨alone, pair.single _ listed other (by simp [alone])⟩

end Pair

namespace Resolver

open Descriptor (Node)
open Schema (Field FileUnit)

theorem FieldFailed.unrepeated {table : SymbolTable} {field : Descriptor.Field} {context : String}
    {depth : Nat} {e : Error} (failed : FieldFailed table field context (depth + 1) e)
    (single : field.label ≠ .repeated) : NamesType field ∧ table.find? (typeNameOf field) = none ∧
      e = .undefinedType field.typeName context := by
  cases failed with
  | undefined names absent => exact ⟨names, absent, rfl⟩
  | absent _ _ _ ranges => exact absurd (label_of_entryOf ranges) single
  | key entry _ ranges => exact absurd (label_of_entryOf ranges) single
  | value _ _ _ _ ranges => exact absurd (label_of_entryOf ranges) single

theorem FieldFailed.of_pairs {table : SymbolTable} {field : Descriptor.Field} {context : String}
    {depth : Nat} {e : Error} (failed : FieldFailed table field context (depth + 2) e)
    (pairs : ∀ entry, entryOf? table field = some entry → entry.IsPair) :
    ∃ culprit place, Involves table field culprit ∧ NamesType culprit ∧
      table.find? (typeNameOf culprit) = none ∧ e = .undefinedType culprit.typeName place := by
  cases failed with
  | undefined names absent => exact ⟨field, context, .self, names, absent, rfl⟩
  | absent entry number known ranges absent =>
    obtain ⟨_, found, _⟩ := (pairs entry ranges).found known
    rw [absent] at found
    cases found
  | key entry keyField ranges isKey failed =>
    obtain ⟨alone, single⟩ := (pairs entry ranges).alone (.inl rfl) isKey
    obtain ⟨names, absent, rfl⟩ := (buildFieldTo_eq_error failed).unrepeated single
    have inside := List.mem_singleton.mpr (Eq.refl keyField)
    exact ⟨keyField, _, .inner entry 1 keyField ranges (by simp) (alone ▸ inside), names, absent, rfl⟩
  | value entry _ valueField _ ranges _ _ isValue failed =>
    obtain ⟨alone, single⟩ := (pairs entry ranges).alone (.inr rfl) isValue
    obtain ⟨names, absent, rfl⟩ := (buildFieldTo_eq_error failed).unrepeated single
    have inside := List.mem_singleton.mpr (Eq.refl valueField)
    exact ⟨valueField, _, .inner entry 2 valueField ranges (by simp) (alone ▸ inside), names, absent,
      rfl⟩

section Consults

variable {room : Room} {table : SymbolTable} {file : Descriptor.File}

theorem UnitBuilt.visibleField {unit : FileUnit} (built : UnitBuilt room table file unit)
    {field : Descriptor.Field} (visible : field ∈ file.visibleFields) :
    ∃ depth context oneof f, buildFieldTo table depth field context oneof = .ok f := by
  obtain ⟨n, isNode, shown, isField⟩ := Descriptor.File.mem_visibleFields.mp visible
  have isVisible : n ∈ file.nodes.filter (!·.isHidden) := List.mem_filter.mpr ⟨isNode, by simp [shown]⟩
  obtain ⟨m, _, messageBuilt⟩ := built.messages.exists_right isVisible
  obtain ⟨placed, messageBuilt⟩ := buildMessage_eq_ok messageBuilt
  obtain ⟨place, _, placed⟩ := messageBuilt.places.exists_right isField
  simp only [placeField, Result.bind_eq_ok] at placed
  obtain ⟨oneof, _, f, fieldBuilt, _⟩ := placed
  exact ⟨_, _, oneof, f, fieldBuilt⟩

theorem UnitBuilt.method_found {unit : FileUnit} (built : UnitBuilt room table file unit)
    {service : Descriptor.Service} (isService : service ∈ file.services) {method : Descriptor.Method}
    (isMethod : method ∈ service.methods) : ∃ input output,
      table.find? (Text.dropLeadingDots method.input) = some input ∧
      table.find? (Text.dropLeadingDots method.output) = some output := by
  obtain ⟨_, _, serviceBuilt⟩ := built.services.exists_right isService
  obtain ⟨methods, walk, _⟩ := Result.bind_eq_ok.mp serviceBuilt
  obtain ⟨_, _, methodBuilt⟩ := (Result.mapM_eq_ok.mp walk).exists_right isMethod
  simp only [buildMethod, Result.bind_eq_ok] at methodBuilt
  obtain ⟨input, isInput, output, isOutput, _⟩ := methodBuilt
  exact ⟨input, output, resolve_eq_ok isInput, resolve_eq_ok isOutput⟩

theorem Sound.failure (sound : Sound table file) (symbols : fileSymbols file ⊆ table.newestFirst)
    {e : Error} (failed : buildFile room table file = .error e) : ∃ typeName context,
      Consults table file (Text.dropLeadingDots typeName) ∧
      table.find? (Text.dropLeadingDots typeName) = none ∧ e = .undefinedType typeName context := by
  rcases buildFile_eq_error symbols failed with
    ⟨n, isNode, shown, field, isField, failed⟩ | ⟨service, isService, method, isMethod, failed⟩
  · rcases placeField_eq_error failed with ⟨index, standing, failed⟩ | ⟨oneof, failed⟩
    · obtain ⟨nonneg, inside⟩ := sound.inRange n isNode shown field isField index
        (Option.filter_eq_some_iff.mp standing).1
      exact absurd failed (declaredOneof_succeeds nonneg inside)
    · have visible := Descriptor.File.mem_visibleFields.mpr ⟨n, isNode, shown, isField⟩
      obtain ⟨depth, levels⟩ := Nat.exists_eq_add_of_le' (room.spare n.scope.length)
      rw [levels] at failed
      obtain ⟨culprit, place, involves, names, absent, rfl⟩ :=
        (buildFieldTo_eq_error failed).of_pairs (sound.pairs field visible)
      exact ⟨_, place, .field field culprit visible involves names, absent, rfl⟩
  · rcases Result.bind_eq_error.mp failed with failed | ⟨_, _, failed⟩
    · obtain ⟨absent, rfl⟩ := resolve_eq_error failed
      exact ⟨_, _, .input service method isService isMethod, absent, rfl⟩
    rcases Result.bind_eq_error.mp failed with failed | ⟨_, _, done⟩
    · obtain ⟨absent, rfl⟩ := resolve_eq_error failed
      exact ⟨_, _, .output service method isService isMethod, absent, rfl⟩
    · cases done

theorem FieldBuilt.found {field : Descriptor.Field} {oneof : Option String} {depth : Nat} {f : Field}
    (built : FieldBuilt table field oneof depth f) (names : NamesType field) :
    ∃ s, table.find? (typeNameOf field) = some s := by
  cases built with
  | scalar type isScalar => exact absurd isScalar (names type)
  | named s _ found => exact ⟨s, found⟩
  | map s _ _ _ _ _ _ _ found => exact ⟨s, found⟩

theorem FieldBuilt.inner_found {field inner : Descriptor.Field} {oneof : Option String} {depth : Nat}
    {f : Field} (built : FieldBuilt table field oneof depth f)
    (pairs : ∀ entry, entryOf? table field = some entry → entry.IsPair)
    (involves : Involves table field inner) (names : NamesType inner) :
    ∃ s, table.find? (typeNameOf inner) = some s := by
  cases involves with
  | self => exact built.found names
  | inner entry number _ ranges known inside =>
    obtain ⟨ofType, s, found, isEntry⟩ := entryOf?_eq_some.mp ranges
    cases built with
    | scalar type isScalar => exact absurd isScalar (ofType type)
    | named t _ found' noEntry =>
      rw [Option.some.inj (found.symm.trans found'), noEntry] at isEntry
      cases isEntry
    | map t other keyField valueField _ _ _ _ found' isEntry' isKey isValue keyBuilt valueBuilt =>
      rw [Option.some.inj (found.symm.trans found'), isEntry', Option.some.injEq] at isEntry
      subst isEntry
      have pair := pairs other ranges
      rcases List.mem_cons.mp known with rfl | known
      · have alone := (pair.alone (.inl rfl) (fieldNumbered?_of_ok isKey)).1
        obtain rfl : inner = keyField := List.mem_singleton.mp (alone ▸ inside)
        exact (buildFieldTo_eq_ok keyBuilt).found names
      · rw [List.mem_singleton.mp known] at inside
        have alone := (pair.alone (.inr rfl) (fieldNumbered?_of_ok isValue)).1
        obtain rfl : inner = valueField := List.mem_singleton.mp (alone ▸ inside)
        exact (buildFieldTo_eq_ok valueBuilt).found names

theorem UnitBuilt.consulted {unit : FileUnit} (built : UnitBuilt room table file unit)
    (sound : Sound table file) {name : String} (consults : Consults table file name) :
    ∃ s, table.find? name = some s := by
  cases consults with
  | field field inner visible involves names =>
    obtain ⟨_, context, oneof, f, fieldBuilt⟩ := built.visibleField visible
    exact (buildFieldTo_eq_ok fieldBuilt).inner_found (sound.pairs field visible) involves names
  | input service method isService isMethod =>
    obtain ⟨input, _, isInput, _⟩ := built.method_found isService isMethod
    exact ⟨input, isInput⟩
  | output service method isService isMethod =>
    obtain ⟨_, output, _, isOutput⟩ := built.method_found isService isMethod
    exact ⟨output, isOutput⟩

end Consults

/-- The errors that the resolver raises itself. The others come from lists and tables that it takes an
    element of. -/
def Error.isResolution : Error → Bool
  | missingDependency _ _ | unknownFile _ | undefinedType _ _ => true
  | missingEntryField _ | oneofOutOfRange | undeclared _ | deepMapEntry _ => false

/-- A dependency that has no unit, or a name that is consulted and stands for nothing. -/
inductive Unresolvable (resolver : Resolver) (file : Descriptor.File) : Prop
  | dependency (name : String) : name ∈ file.dependencies →
      name ∉ resolver.files.map (·.name) → Unresolvable resolver file
  | typeName (name : String) : Consults (tableFor resolver file) file name →
      resolver.symbols.find? name = none →
      (∀ path d, file.Declares path d → (refAt file path).fullName ≠ name) → Unresolvable resolver file

/-- Names are all that an add fails at. -/
structure FailsAtNames (resolver : Resolver) (file : Descriptor.File) : Prop where
  fails_iff : (∃ e, (resolver.add file).2 = .error e ∧ e.isResolution = true) ↔
    Unresolvable resolver file
  returns : ¬Unresolvable resolver file → ∃ unit, (resolver.add file).2 = .ok unit
  only : ∀ e, (resolver.add file).2 = .error e → e.isResolution = true
  declared : ∀ path d, file.Declares path d → ∃ s,
    (tableFor resolver file).find? (refAt file path).fullName = some s ∧
      declaredRef (tableFor resolver file) file path = .ok s.ref
  types : ∀ n ∈ file.nodes, ∀ field ∈ n.message.fields,
    NamesType field ∨ ∃ type ∈ Schema.ScalarType.all, field.type = .scalar type

section Add

variable {resolver : Resolver} {file : Descriptor.File}

theorem unresolvable_of_consults {name : String}
    (consults : Consults (tableFor resolver file) file name)
    (absent : (tableFor resolver file).find? name = none) : Unresolvable resolver file := by
  obtain ⟨unknown, undeclared⟩ := find?_extend_eq_none.mp absent
  exact .typeName name consults unknown undeclared

theorem add_eq_error (sound : Sound (tableFor resolver file) file) {e : Error}
    (failed : (resolver.add file).2 = .error e) :
    Unresolvable resolver file ∧ e.isResolution = true := by
  have attempt := add_attempt resolver file
  generalize resolver.add file = outcome at attempt failed
  cases attempt with
  | missing dependency isDependency unknown =>
    cases failed
    exact ⟨.dependency dependency isDependency unknown, rfl⟩
  | failed error _ buildFailed =>
    cases failed
    obtain ⟨typeName, context, consults, absent, rfl⟩ :=
      sound.failure (symbols_subset_tableFor resolver file) buildFailed
    exact ⟨unresolvable_of_consults consults absent, rfl⟩
  | built => cases failed

theorem add_fails (sound : Sound (tableFor resolver file) file)
    (unresolvable : Unresolvable resolver file) : ∃ e, (resolver.add file).2 = .error e := by
  have attempt := add_attempt resolver file
  generalize resolver.add file = outcome at attempt
  cases attempt with
  | missing | failed => exact ⟨_, rfl⟩
  | built unit known built =>
    cases unresolvable with
    | dependency name isDependency unknown => exact absurd (known name isDependency) unknown
    | typeName name consults unknown undeclared =>
      obtain ⟨s, found⟩ := (buildFile_eq_ok built).consulted sound consults
      have absent := find?_extend_eq_none.mpr ⟨unknown, undeclared⟩
      rw [found] at absent
      cases absent

theorem declared_found {path : List String} {d : Declaration} (declares : file.Declares path d) :
    ∃ s, (tableFor resolver file).find? (refAt file path).fullName = some s ∧
      declaredRef (tableFor resolver file) file path = .ok s.ref := by
  have isSymbol := Descriptor.File.mem_symbols_iff.mpr ⟨path, d, declares, rfl⟩
  obtain ⟨s, found⟩ := SymbolTable.find_isSome (symbols_subset_tableFor resolver file isSymbol)
  exact ⟨s, found, by simp [declaredRef, found]⟩

theorem namesType_or_scalar (field : Descriptor.Field) :
    NamesType field ∨ ∃ type ∈ Schema.ScalarType.all, field.type = .scalar type := by
  rw [namesType_iff]
  cases field.type with
  | scalar type => exact .inr ⟨type, by cases type <;> decide, rfl⟩
  | group | message | enum => simp

/-- A file whose oneofs and entries are in order can be added exactly if every name in it stands for
    something, at any state of the resolver. -/
theorem sound_failsAtNames (sound : Sound (tableFor resolver file) file) :
    FailsAtNames resolver file where
  fails_iff := by
    constructor
    · rintro ⟨e, failed, _⟩
      exact (add_eq_error sound failed).1
    · intro unresolvable
      obtain ⟨e, failed⟩ := add_fails sound unresolvable
      exact ⟨e, failed, (add_eq_error sound failed).2⟩
  returns := fun resolvable =>
    Result.exists_of_never fun e failed => resolvable (add_eq_error sound failed).1
  only := fun e failed => (add_eq_error sound failed).2
  declared := fun _ _ declares => declared_found declares
  types := fun _ _ field _ => namesType_or_scalar field

end Add

def tour : Descriptor.File where
  name := "tour.proto"
  messages := [
    { name := "Tour"
      fields := [
        { name := "title", number := 1, type := .scalar .string, oneofIndex := some 0 },
        { name := "stops", number := 2, type := .message, label := .repeated,
          typeName := ".Tour.StopsEntry" }]
      oneofs := ["label"]
      messages := [
        { name := "StopsEntry"
          fields := [
            { name := "key", number := 1, type := .scalar .string },
            { name := "value", number := 2, type := .message, typeName := ".Stop" }]
          isMapEntry := true }] }]

theorem tour_fails : Sound (tableFor {} tour) tour ∧ Unresolvable {} tour ∧
    ∃ e, (Resolver.add {} tour).2 = .error e ∧ e.isResolution = true := by
  have sound : Sound (tableFor {} tour) tour := by decide +kernel
  have failure := (sound_failsAtNames sound).fails_iff
  have fails : ∃ e, (Resolver.add {} tour).2 = .error e ∧ e.isResolution = true :=
    ⟨.undefinedType ".Stop" "Tour.stops.value", by decide +kernel, rfl⟩
  exact ⟨sound, failure.mp fails, fails⟩

end Resolver

end ProtoBindings
