import ProtoBindings.Proofs.Resolver.Run
import ProtoBindings.Schema.Basic

namespace ProtoBindings.Resolver

open Descriptor (Node nodesOf)
open Schema (EnumType Field FieldInfo FileUnit Message Oneof innerFirstOf)

def typeNameOf (field : Descriptor.Field) : String := Text.dropLeadingDots field.typeName

def NamesType (field : Descriptor.Field) : Prop := ∀ type, field.type ≠ .scalar type

theorem resolve_eq_ok {table : SymbolTable} {typeName context : String} {s : Symbol}
    (found : table.resolve typeName context = .ok s) :
    table.find? (Text.dropLeadingDots typeName) = some s := by
  rw [SymbolTable.resolve] at found
  split at found
  · rename_i result
    rw [result, Except.ok.inj found]
  · cases found

theorem declaredRef_of_found {table : SymbolTable} {file : Descriptor.File} {path : List String} {s : Symbol}
    (found : table.find? s.ref.fullName = some s) (isRef : s.ref = refAt file path) :
    declaredRef table file path = .ok s.ref := by
  rw [isRef] at found
  simp only [declaredRef, found]

theorem buildEnum_eq_ok {table : SymbolTable} {file : Descriptor.File} {scope : List String}
    {d : Descriptor.Enum} {e : EnumType} : buildEnum table file scope d = .ok e ↔
      ∃ ref, declaredRef table file (scope ++ [d.name]) = .ok ref ∧
        ⟨d.name, (refAt file (scope ++ [d.name])).fullName, ref,
          d.values.map fun value => ⟨value.name, value.number⟩⟩ = e := by
  simp only [buildEnum, Result.bind_eq_ok, Result.pure_eq_ok]

theorem fieldNumbered?_of_ok {message : Descriptor.Message} {number : Nat} {field : Descriptor.Field}
    (found : fieldNumbered message number = .ok field) : fieldNumbered? message number = some field := by
  rw [fieldNumbered] at found
  split at found
  · rename_i result
    rw [result, Except.ok.inj found]
  · cases found

theorem fieldNumbered_eq_ok {message : Descriptor.Message} {number : Nat} {field : Descriptor.Field}
    (found : fieldNumbered message number = .ok field) :
    field ∈ message.fields ∧ field.number = number := by
  have result := fieldNumbered?_of_ok found
  have member := List.mem_of_find?_eq_some result
  exact ⟨List.mem_reverse.mp member, by simpa using List.find?_some result⟩

/-- How a field comes about: a scalar one as it stands, one of a named type with the symbol of that
    name, and a map field with the key and the value of its entry, built one level further down. -/
inductive FieldBuilt (table : SymbolTable) (field : Descriptor.Field) (oneof : Option String) :
    (depth : Nat) → Field → Prop
  | scalar {depth} (type) : field.type = .scalar type →
      FieldBuilt table field oneof (depth + 1) (ordinaryField field (.scalar type) oneof)
  | named {depth} (s : Symbol) : NamesType field →
      table.find? (typeNameOf field) = some s → s.entry? field.label = none →
      FieldBuilt table field oneof (depth + 1) (ordinaryField field s.element oneof)
  | map {depth} (s : Symbol) (entry : Descriptor.Message) (keyField valueField : Descriptor.Field)
      (context : String) (key value : Field) : NamesType field →
      table.find? (typeNameOf field) = some s → s.entry? field.label = some entry →
      fieldNumbered entry 1 = .ok keyField → fieldNumbered entry 2 = .ok valueField →
      buildFieldTo table depth keyField (context ++ ".key") none = .ok key →
      buildFieldTo table depth valueField (context ++ ".value") none = .ok value →
      FieldBuilt table field oneof (depth + 1) (.map {
        name := field.name
        number := field.number
        element := .message s.ref
        deprecated := field.deprecated } key value)

theorem buildFieldTo_eq_ok {table : SymbolTable} {depth : Nat} {field : Descriptor.Field}
    {context : String} {oneof : Option String} {built : Field}
    (result : buildFieldTo table depth field context oneof = .ok built) :
    FieldBuilt table field oneof depth built := by
  cases depth with
  | zero => cases result
  | succ depth =>
    cases kind : field.type with
    | scalar type =>
      simp only [buildFieldTo, kind] at result
      cases result
      exact .scalar type kind
    | group | message | enum =>
      have ofType : NamesType field := by simp [NamesType, kind]
      simp only [buildFieldTo, kind] at result
      obtain ⟨s, found, result⟩ := Result.bind_eq_ok.mp result
      have found := resolve_eq_ok found
      split at result
      · rename_i entry isEntry
        simp only [Result.bind_eq_ok, Result.pure_eq_ok, Result.mapError_eq_ok] at result
        obtain ⟨keyField, isKey, key, keyBuilt, valueField, isValue, value, valueBuilt, rfl⟩ := result
        exact .map s entry keyField valueField context key value ofType found isEntry isKey isValue
          keyBuilt valueBuilt
      · rename_i noEntry
        cases Result.pure_eq_ok.mp result
        exact .named s ofType found noEntry

theorem FieldBuilt.name {table : SymbolTable} {field : Descriptor.Field} {oneof : Option String}
    {depth : Nat} {built : Field} (result : FieldBuilt table field oneof depth built) :
    built.name = field.name := by
  cases result <;> rfl

theorem placeField_eq_ok {depth : Nat} {table : SymbolTable} {message : Descriptor.Message} {fullName : String}
    {field : Descriptor.Field} {place : PlacedField}
    (result : placeField depth table message fullName field = .ok place) :
    place.oneof = realOneof? message field ∧ ∃ oneof,
      (realOneof? message field).mapM (declaredOneof message.oneofs) = .ok oneof ∧
      FieldBuilt table field oneof depth place.field := by
  simp only [placeField, Result.bind_eq_ok, Result.pure_eq_ok] at result
  obtain ⟨oneof, declared, built, result, rfl⟩ := result
  exact ⟨rfl, oneof, declared, buildFieldTo_eq_ok result⟩

theorem buildOneof_eq_ok {message : Descriptor.Message} {placed : List PlacedField} {index : Int} {o : Oneof}
    (result : buildOneof message placed index = .ok o) :
    declaredOneof message.oneofs index = .ok o.name ∧
      o.fields = (placed.filter (·.oneof == some index)).map (·.field) := by
  simp only [buildOneof, Result.bind_eq_ok, Result.pure_eq_ok] at result
  obtain ⟨name, declared, rfl⟩ := result
  exact ⟨declared, rfl⟩

structure MessageBuilt (room : Room) (table : SymbolTable) (file : Descriptor.File) (scope : List String)
    (message : Descriptor.Message) (placed : List PlacedField) (built : Message) : Prop where
  places : List.Forall₂ (fun field place =>
    placeField (room.levels scope.length) table message
      (refAt file (scope ++ [message.name])).fullName field = .ok place)
    message.fields placed
  oneofs : List.Forall₂ (fun index oneof => buildOneof message placed index = .ok oneof)
    (usedOneofs placed) built.oneofs
  nested : buildMessages room table file (scope ++ [message.name]) message.messages = .ok built.messages
  fields : built.fields = (placed.filter (·.oneof.isNone)).map (·.field)
  fullName : built.fullName = (refAt file (scope ++ [message.name])).fullName
  ref : declaredRef table file (scope ++ [message.name]) = .ok built.ref
  enums : List.Forall₂ (fun d e => buildEnum table file (scope ++ [message.name]) d = .ok e)
    message.enums built.enums
  declarationOrder : built.declarationOrder = message.fields.map (·.name)

theorem buildMessage_eq_ok {room : Room} {table : SymbolTable} {file : Descriptor.File} {scope : List String}
    {message : Descriptor.Message} {built : Message}
    (result : buildMessage room table file scope message = .ok built) :
    ∃ placed, MessageBuilt room table file scope message placed built := by
  obtain ⟨name, fields, oneofs, messages, enums, isMapEntry⟩ := message
  simp only [buildMessage, Result.bind_eq_ok, Result.pure_eq_ok, Result.mapM_eq_ok] at result
  obtain ⟨ref, isRef, placed, places, builtOneofs, built, nested, inner, builtEnums, enumsBuilt, rfl⟩ :=
    result
  exact ⟨placed, places, built, inner, rfl, rfl, isRef, enumsBuilt, rfl⟩

section Message

variable {room : Room} {table : SymbolTable} {file : Descriptor.File} {scope : List String}
  {message : Descriptor.Message} {placed : List PlacedField} {built : Message}

theorem MessageBuilt.place (result : MessageBuilt room table file scope message placed built)
    {place : PlacedField} (member : place ∈ placed) :
    ∃ field ∈ message.fields, place.oneof = realOneof? message field ∧ ∃ oneof,
      (realOneof? message field).mapM (declaredOneof message.oneofs) = .ok oneof ∧
      FieldBuilt table field oneof (room.levels scope.length) place.field := by
  obtain ⟨field, isField, placed⟩ := result.places.exists_left member
  exact ⟨field, isField, placeField_eq_ok placed⟩

theorem MessageBuilt.plain (result : MessageBuilt room table file scope message placed built)
    {f : Field} (member : f ∈ built.fields) :
    ∃ field ∈ message.fields, realOneof? message field = none ∧
      FieldBuilt table field none (room.levels scope.length) f := by
  simp only [result.fields, List.mem_map, List.mem_filter] at member
  obtain ⟨place, ⟨isPlace, outside⟩, rfl⟩ := member
  obtain ⟨field, isField, index, oneof, declared, fieldBuilt⟩ := result.place isPlace
  rw [index, Option.isNone_iff_eq_none] at outside
  rw [outside] at declared
  cases declared
  exact ⟨field, isField, outside, fieldBuilt⟩

theorem MessageBuilt.fields_names (result : MessageBuilt room table file scope message placed built) :
    built.fields.map (·.name) =
      (message.fields.filter fun field => (realOneof? message field).isNone).map (·.name) := by
  rw [result.fields, List.map_map]
  refine (result.places.filter_map_eq ?_ ?_).symm
  · intro field _ place placed
    rw [(placeField_eq_ok placed).1]
  · intro field place placed
    obtain ⟨_, _, _, fieldBuilt⟩ := placeField_eq_ok placed
    exact fieldBuilt.name.symm

theorem MessageBuilt.oneof (result : MessageBuilt room table file scope message placed built)
    {o : Oneof} (member : o ∈ built.oneofs) :
    ∃ index ∈ usedOneofs placed, declaredOneof message.oneofs index = .ok o.name ∧
      o.fields = (placed.filter (·.oneof == some index)).map (·.field) := by
  obtain ⟨index, used, result⟩ := result.oneofs.exists_left member
  exact ⟨index, used, buildOneof_eq_ok result⟩

theorem MessageBuilt.oneofField (result : MessageBuilt room table file scope message placed built)
    {o : Oneof} (member : o ∈ built.oneofs) {f : Field} (isField : f ∈ o.fields) :
    ∃ field ∈ message.fields, realOneof? message field ≠ none ∧
      FieldBuilt table field (some o.name) (room.levels scope.length) f := by
  obtain ⟨index, _, declared, fields⟩ := result.oneof member
  simp only [fields, List.mem_map, List.mem_filter, beq_iff_eq] at isField
  obtain ⟨place, ⟨isPlace, inside⟩, rfl⟩ := isField
  obtain ⟨field, isField, index, oneof, named, fieldBuilt⟩ := result.place isPlace
  rw [← index, inside, Option.mapM_some, declared] at named
  cases named
  exact ⟨field, isField, by simp [← index, inside], fieldBuilt⟩

end Message

mutual

theorem buildMessage_innerFirst (room : Room) (table : SymbolTable) (file : Descriptor.File)
    (scope : List String) : ∀ (message : Descriptor.Message) (built : Message),
    message.isMapEntry = false → buildMessage room table file scope message = .ok built →
      List.Forall₂ (fun n m => buildMessage room table file n.scope n.message = .ok m)
        ((message.nodes scope false).filter (!·.isHidden)) built.innerFirst
  | ⟨name, fields, oneofs, messages, enums, isMapEntry⟩, built, notEntry, result => by
    cases notEntry
    obtain ⟨placed, whole⟩ := buildMessage_eq_ok result
    have nested := buildMessages_innerFirst room table file (scope ++ [name]) messages built.messages
      whole.nested
    simp only [Descriptor.Message.nodes, Bool.or_false, List.filter_append]
    rw [Message.innerFirst_eq]
    exact List.rel_append nested (.cons result .nil)

theorem buildMessages_innerFirst (room : Room) (table : SymbolTable) (file : Descriptor.File)
    (scope : List String) : ∀ (messages : List Descriptor.Message) (built : List Message),
    buildMessages room table file scope messages = .ok built →
      List.Forall₂ (fun n m => buildMessage room table file n.scope n.message = .ok m)
        ((nodesOf scope false messages).filter (!·.isHidden)) (innerFirstOf built)
  | [], built, result => by
    rw [buildMessages] at result
    cases result
    exact .nil
  | message :: rest, built, result => by
    rw [buildMessages] at result
    rw [nodesOf, List.filter_append]
    split at result
    · rename_i isEntry
      have hidden : (message.nodes scope false).filter (!·.isHidden) = [] := by
        rw [List.filter_eq_nil_iff]
        exact fun n member => by simp [message.nodes_of_entry scope isEntry n member]
      rw [hidden]
      exact buildMessages_innerFirst room table file scope rest built result
    · rename_i notEntry
      simp only [Result.bind_eq_ok, Result.pure_eq_ok] at result
      obtain ⟨first, firstBuilt, others, othersBuilt, rfl⟩ := result
      have inFirst := buildMessage_innerFirst room table file scope message first
        (by simpa using notEntry) firstBuilt
      exact List.rel_append inFirst
        (buildMessages_innerFirst room table file scope rest others othersBuilt)

end

end ProtoBindings.Resolver
