import ProtoBindings.Proofs.Resolver.Build
import ProtoBindings.Proofs.Schema.Fields

namespace ProtoBindings.Descriptor

/-- The oneof that a field shares with other fields. That of an optional field is synthetic. -/
def Field.sharedOneof? (field : Field) : Option Int :=
  if field.isProto3Optional then none else field.oneofIndex

namespace Message

def oneofFields (message : Message) (index : Int) : List Field :=
  message.fields.filter (·.sharedOneof? == some index)

/-- The name that a field adds to those of the members after the fields declared before it. -/
def memberName? (message : Message) (earlier : List Field) (field : Field) : Option String :=
  match field.sharedOneof? with
  | none => some field.name
  | some index =>
    if earlier.any (·.sharedOneof? == some index) then none else message.oneofs[index.toNat]?

def memberNamesFrom (message : Message) (earlier : List Field) : List Field → List String
  | [] => []
  | field :: rest =>
    (message.memberName? earlier field).toList ++ memberNamesFrom message (earlier ++ [field]) rest

def memberNames (message : Message) : List String := message.memberNamesFrom [] message.fields

def OptionalsAlone (message : Message) : Prop :=
  ∀ field ∈ message.fields, field.isProto3Optional = true → ∀ index,
    field.oneofIndex = some index → ∀ other ∈ message.fields, other.oneofIndex = some index →
    other = field

/-- What the schema compiler sees to: names tell fields and oneofs apart, indices point at oneofs, and
    an optional field is alone in its oneof. -/
structure Regular (message : Message) : Prop where
  fieldNames : (message.fields.map (·.name)).Nodup
  oneofNames : message.oneofs.Nodup
  inRange : ∀ field ∈ message.fields, ∀ index, field.oneofIndex = some index →
    0 ≤ index ∧ index < message.oneofs.length
  alone : ∀ field ∈ message.fields, field.isProto3Optional = true → ∀ index,
    field.oneofIndex = some index → ∀ other ∈ message.fields, other.oneofIndex = some index →
    other = field

theorem Regular.own_index {message : Message} (regular : message.Regular) {field : Field}
    (member : field ∈ message.fields) {index : Int} (standing : field.sharedOneof? = some index) :
    0 ≤ index ∧ index < message.oneofs.length := by
  rw [Field.sharedOneof?] at standing
  split at standing
  · cases standing
  · exact regular.inRange field member index standing

theorem Regular.index_eq {message : Message} (regular : message.Regular) {field other : Field}
    (isField : field ∈ message.fields) (isOther : other ∈ message.fields) {i j : Int}
    (atI : field.sharedOneof? = some i) (atJ : other.sharedOneof? = some j)
    (same : message.oneofs[i.toNat]? = message.oneofs[j.toNat]?) : i = j := by
  have boundI := regular.own_index isField atI
  have boundJ := regular.own_index isOther atJ
  have inside : i.toNat < message.oneofs.length := by omega
  have equal := (List.getElem?_inj inside regular.oneofNames).mp same
  omega

end Message

end ProtoBindings.Descriptor

namespace ProtoBindings.Resolver

open Descriptor (Node)
open Schema (Field Member Message Oneof)

variable {room : Room} {table : SymbolTable} {file : Descriptor.File} {scope : List String}
  {message : Descriptor.Message} {placed : List PlacedField} {built : Message}

theorem realOneof_eq_shared (alone : message.OptionalsAlone) {field : Descriptor.Field}
    (member : field ∈ message.fields) : realOneof? message field = field.sharedOneof? := by
  rw [realOneof?, Descriptor.Field.sharedOneof?]
  cases standing : field.oneofIndex with
  | none => simp
  | some index =>
    have synthetic : index ∈ syntheticOneofs message.fields ↔ field.isProto3Optional = true := by
      simp only [syntheticOneofs, List.mem_filterMap, List.mem_filter]
      constructor
      · rintro ⟨other, ⟨isField, optional⟩, same⟩
        rw [alone other isField optional index same field member standing]
        exact optional
      · exact fun optional => ⟨field, ⟨member, optional⟩, standing⟩
    by_cases optional : field.isProto3Optional = true
    · simp [synthetic.mpr optional, optional]
    · have real : ¬ index ∈ syntheticOneofs message.fields := mt synthetic.mp optional
      simp [real, optional]

theorem realOneof_eq (regular : message.Regular) {field : Descriptor.Field}
    (member : field ∈ message.fields) : realOneof? message field = field.sharedOneof? :=
  realOneof_eq_shared regular.alone member

theorem declaredOneof_eq_ok {oneofs : List String} {index : Int} {name : String}
    (nonneg : 0 ≤ index) (declared : declaredOneof oneofs index = .ok name) :
    oneofs[index.toNat]? = some name := by
  have notNegative : ¬ index < 0 := by omega
  simp only [declaredOneof, notNegative, if_false] at declared
  split at declared
  · rename_i found
    cases declared
    exact found
  · cases declared

theorem declaredOneof_mem {oneofs : List String} {index : Int} {name : String}
    (declared : declaredOneof oneofs index = .ok name) : name ∈ oneofs := by
  simp only [declaredOneof] at declared
  split at declared
  · rename_i found
    cases declared
    exact List.mem_of_getElem? (Option.ite_none_left_eq_some.mp found).2
  · cases declared

theorem mem_usedOneofs {index : Int} :
    index ∈ usedOneofs placed ↔ ∃ place ∈ placed, place.oneof = some index := by
  simp [usedOneofs, List.mem_eraseDups]

theorem MessageBuilt.place_of_field (result : MessageBuilt room table file scope message placed built)
    {field : Descriptor.Field} (member : field ∈ message.fields) :
    ∃ place ∈ placed, place.oneof = realOneof? message field ∧ place.field.name = field.name := by
  obtain ⟨place, isPlace, result⟩ := result.places.exists_right member
  obtain ⟨index, _, _, fieldBuilt⟩ := placeField_eq_ok result
  exact ⟨place, isPlace, index, fieldBuilt.name⟩

theorem MessageBuilt.mem_usedOneofs_iff_real
    (result : MessageBuilt room table file scope message placed built) {index : Int} :
    index ∈ usedOneofs placed ↔ ∃ field ∈ message.fields, realOneof? message field = some index := by
  rw [mem_usedOneofs]
  constructor
  · rintro ⟨place, isPlace, standing⟩
    obtain ⟨field, isField, ofIndex, _⟩ := result.place isPlace
    exact ⟨field, isField, ofIndex ▸ standing⟩
  · rintro ⟨field, isField, standing⟩
    obtain ⟨place, isPlace, ofIndex, _⟩ := result.place_of_field isField
    exact ⟨place, isPlace, ofIndex.trans standing⟩

theorem MessageBuilt.plainField_isSome (result : MessageBuilt room table file scope message placed built)
    {field : Descriptor.Field} (member : field ∈ message.fields)
    (plain : realOneof? message field = none) :
    ∃ f ∈ built.fields, built.plainField? field.name = some f ∧ f.name = field.name := by
  obtain ⟨place, isPlace, index, named⟩ := result.place_of_field member
  have outside : place.field ∈ built.fields.reverse := by
    rw [List.mem_reverse, result.fields]
    exact List.mem_map_of_mem (List.mem_filter.mpr ⟨isPlace, by simp [index, plain]⟩)
  have some : (built.plainField? field.name).isSome :=
    List.find?_isSome.mpr ⟨place.field, outside, by simpa using named⟩
  obtain ⟨f, found⟩ := Option.isSome_iff_exists.mp some
  exact ⟨f, List.mem_reverse.mp (List.mem_of_find?_eq_some found), found,
    by simpa using List.find?_some found⟩

theorem MessageBuilt.oneof_of_index (result : MessageBuilt room table file scope message placed built)
    {field : Descriptor.Field} (member : field ∈ message.fields) {index : Int}
    (standing : realOneof? message field = some index) :
    ∃ o ∈ built.oneofs, declaredOneof message.oneofs index = .ok o.name ∧
      o.fields = (placed.filter (·.oneof == some index)).map (·.field) := by
  have used := result.mem_usedOneofs_iff_real.mpr ⟨field, member, standing⟩
  obtain ⟨o, isOneof, result⟩ := result.oneofs.exists_right used
  exact ⟨o, isOneof, buildOneof_eq_ok result⟩

theorem MessageBuilt.oneofOf_isSome (result : MessageBuilt room table file scope message placed built)
    {field : Descriptor.Field} (member : field ∈ message.fields) {index : Int}
    (standing : realOneof? message field = some index) :
    ∃ o ∈ built.oneofs, built.oneofOf? field.name = some o ∧ ∃ f ∈ o.fields, f.name = field.name := by
  obtain ⟨o, isOneof, _, fields⟩ := result.oneof_of_index member standing
  obtain ⟨place, isPlace, ofIndex, named⟩ := result.place_of_field member
  have inside : place.field ∈ o.fields := by
    rw [fields]
    exact List.mem_map_of_mem (List.mem_filter.mpr ⟨isPlace, by simp [ofIndex, standing]⟩)
  have some : (built.oneofOf? field.name).isSome :=
    List.find?_isSome.mpr ⟨o, List.mem_reverse.mpr isOneof,
      List.any_eq_true.mpr ⟨place.field, inside, by simpa using named⟩⟩
  obtain ⟨first, found⟩ := Option.isSome_iff_exists.mp some
  have named : first.fields.any (·.name == field.name) = true := by
    simpa using List.find?_some found
  obtain ⟨f, isField, named⟩ := List.any_eq_true.mp named
  exact ⟨first, List.mem_reverse.mp (List.mem_of_find?_eq_some found), found, f, isField,
    by simpa using named⟩

theorem MessageBuilt.lookup (result : MessageBuilt room table file scope message placed built)
    {name : String} (member : name ∈ built.declarationOrder) :
    (built.plainField? name).isSome ∨ (built.oneofOf? name).isSome := by
  rw [result.declarationOrder, List.mem_map] at member
  obtain ⟨field, isField, rfl⟩ := member
  cases standing : realOneof? message field with
  | none =>
    obtain ⟨f, _, found, _⟩ := result.plainField_isSome isField standing
    exact .inl (by simp [found])
  | some index =>
    obtain ⟨o, _, found, _⟩ := result.oneofOf_isSome isField standing
    exact .inr (by simp [found])

theorem MessageBuilt.complete (result : MessageBuilt room table file scope message placed built) :
    built.Complete := fun _ => result.lookup

theorem MessageBuilt.memberNames_nodup (result : MessageBuilt room table file scope message placed built)
    (distinct : (message.fields.map (·.name) ++ message.oneofs).Nodup) : built.memberNames.Nodup := by
  obtain ⟨ofFields, _, apart⟩ := List.nodup_append.mp distinct
  rw [Schema.Message.memberNames, Schema.Message.members, result.declarationOrder]
  refine Schema.Message.membersOf_names_nodup ofFields fun o isOneof isField => ?_
  obtain ⟨index, _, declared, _⟩ := result.oneof isOneof
  exact apart o.name isField o.name (declaredOneof_mem declared) rfl

def NamesOneofsOf (message : Descriptor.Message) (fields : List Descriptor.Field)
    (names : List String) : Prop :=
  ∀ name, name ∈ names ↔ ∃ field ∈ fields, ∃ index,
    field.sharedOneof? = some index ∧ message.oneofs[index.toNat]? = some name

section NamesOneofsOf

variable {fields : List Descriptor.Field} {names : List String} {field : Descriptor.Field}
  {index : Int} {name : String}

theorem NamesOneofsOf.plain (named : NamesOneofsOf message fields names)
    (standing : field.sharedOneof? = none) : NamesOneofsOf message (fields ++ [field]) names := by
  intro name
  rw [named name]
  simp [standing]

theorem NamesOneofsOf.first (named : NamesOneofsOf message fields names)
    (standing : field.sharedOneof? = some index)
    (declared : message.oneofs[index.toNat]? = some name) :
    NamesOneofsOf message (fields ++ [field]) (name :: names) := by
  intro other
  rw [List.mem_cons, named other]
  constructor
  · rintro (rfl | ⟨g, isField, found⟩)
    · exact ⟨field, by simp, index, standing, declared⟩
    · exact ⟨g, by simp [isField], found⟩
  · rintro ⟨g, isField, position, stands, found⟩
    rcases List.mem_append.mp isField with isField | isField
    · exact .inr ⟨g, isField, position, stands, found⟩
    · rw [List.mem_singleton.mp isField, standing, Option.some.injEq] at stands
      rw [← stands, declared, Option.some.injEq] at found
      exact .inl found.symm

theorem NamesOneofsOf.again (named : NamesOneofsOf message fields names)
    (standing : field.sharedOneof? = some index)
    (declared : message.oneofs[index.toNat]? = some name) (isNamed : name ∈ names) :
    NamesOneofsOf message (fields ++ [field]) names := by
  intro other
  rw [← named.first standing declared other, List.mem_cons]
  exact ⟨.inr, fun found => found.elim (· ▸ isNamed) id⟩

theorem NamesOneofsOf.mem_iff (named : NamesOneofsOf message fields names)
    (regular : message.Regular) {rest : List Descriptor.Field}
    (whole : message.fields = fields ++ rest) (member : field ∈ message.fields)
    (standing : field.sharedOneof? = some index)
    (declared : message.oneofs[index.toNat]? = some name) :
    name ∈ names ↔ fields.any (·.sharedOneof? == some index) = true := by
  rw [named name, List.any_eq_true]
  constructor
  · rintro ⟨other, isOther, position, stands, sameName⟩
    have isField : other ∈ message.fields := by simp [whole, isOther]
    have same := regular.index_eq isField member stands standing (sameName.trans declared.symm)
    exact ⟨other, isOther, by simp [stands, same]⟩
  · rintro ⟨other, isOther, stands⟩
    exact ⟨other, isOther, index, beq_iff_eq.mp stands, declared⟩

end NamesOneofsOf

section Regular

variable (regular : message.Regular) (result : MessageBuilt room table file scope message placed built)
include regular result

theorem MessageBuilt.oneofFields_names {index : Int} :
    ((placed.filter (·.oneof == some index)).map (·.field)).map (·.name) =
      (message.oneofFields index).map (·.name) := by
  rw [List.map_map, Descriptor.Message.oneofFields]
  refine (result.places.filter_map_eq ?_ ?_).symm
  · intro field member place placed
    rw [(placeField_eq_ok placed).1, realOneof_eq regular member]
  · intro field place placed
    obtain ⟨_, _, _, fieldBuilt⟩ := placeField_eq_ok placed
    exact fieldBuilt.name.symm

theorem MessageBuilt.oneof_regular {o : Oneof} (member : o ∈ built.oneofs) :
    ∃ index, message.oneofFields index ≠ [] ∧ message.oneofs[index.toNat]? = some o.name ∧
      o.fields.map (·.name) = (message.oneofFields index).map (·.name) := by
  obtain ⟨index, used, declared, fields⟩ := result.oneof member
  obtain ⟨place, isPlace, ofIndex⟩ := mem_usedOneofs.mp used
  obtain ⟨field, isField, standing, _⟩ := result.place isPlace
  rw [realOneof_eq regular isField, ofIndex] at standing
  have stands : field ∈ message.oneofFields index :=
    List.mem_filter.mpr ⟨isField, by simp [← standing]⟩
  refine ⟨index, List.ne_nil_of_mem stands, declaredOneof_eq_ok ?_ declared, ?_⟩
  · exact (regular.own_index isField standing.symm).1
  · rw [fields, result.oneofFields_names regular]

theorem MessageBuilt.lookup_oneof {field : Descriptor.Field} (member : field ∈ message.fields)
    {index : Int} (standing : field.sharedOneof? = some index) :
    built.plainField? field.name = none ∧ ∃ o ∈ built.oneofs,
      built.oneofOf? field.name = some o ∧ message.oneofs[index.toNat]? = some o.name := by
  have real : realOneof? message field = some index := (realOneof_eq regular member).trans standing
  constructor
  · refine List.find?_eq_none.mpr fun f isField same => ?_
    obtain ⟨other, isOther, plain, fieldBuilt⟩ := result.plain (List.mem_reverse.mp isField)
    have named : other.name = field.name := by
      rw [← fieldBuilt.name]
      simpa using same
    have equal := List.inj_on_of_nodup_map regular.fieldNames isOther member named
    rw [equal, real] at plain
    cases plain
  · obtain ⟨o, isOneof, found, f, isField, named⟩ := result.oneofOf_isSome member real
    obtain ⟨other, _, declared, names⟩ := result.oneof_regular regular isOneof
    have inOneof := names ▸ List.mem_map_of_mem isField
    obtain ⟨twin, isTwin, sameName⟩ := List.mem_map.mp inOneof
    obtain ⟨isTwin, stands⟩ := List.mem_filter.mp isTwin
    have equal := List.inj_on_of_nodup_map regular.fieldNames isTwin member (sameName.trans named)
    rw [equal, standing] at stands
    cases Option.some.inj (beq_iff_eq.mp stands)
    exact ⟨o, isOneof, found, declared⟩

theorem MessageBuilt.membersOf_names {earlier rest : List Descriptor.Field} {seen : List String}
    (whole : message.fields = earlier ++ rest) (passed : NamesOneofsOf message earlier seen) :
    (built.membersOf seen (rest.map (·.name))).map (·.name) =
      message.memberNamesFrom earlier rest := by
  induction rest generalizing earlier seen with
  | nil => rfl
  | cons field rest ih =>
    have member : field ∈ message.fields := by simp [whole]
    have next : message.fields = (earlier ++ [field]) ++ rest := by simp [whole]
    rw [List.map_cons, Message.membersOf, Descriptor.Message.memberNamesFrom,
      Descriptor.Message.memberName?]
    cases standing : field.sharedOneof? with
    | none =>
      have plain := (realOneof_eq regular member).trans standing
      obtain ⟨f, _, found, named⟩ := result.plainField_isSome member plain
      have later := ih next (passed.plain standing)
      simp [found, later, named]
    | some index =>
      obtain ⟨noPlain, o, _, found, declared⟩ := result.lookup_oneof regular member standing
      have again : o.name ∈ seen ↔ earlier.any (·.sharedOneof? == some index) = true :=
        passed.mem_iff regular whole member standing declared
      simp only [noPlain, found, List.contains_eq_mem, decide_eq_true_eq, again]
      split
      · rename_i isSeen
        exact ih next (passed.again standing declared (again.mpr isSeen))
      · have later := ih next (passed.first standing declared)
        simp [declared, later]

theorem MessageBuilt.members_names :
    built.members.map (·.name) = message.memberNames := by
  rw [Message.members, result.declarationOrder]
  exact result.membersOf_names regular rfl (by simp [NamesOneofsOf])

end Regular

end ProtoBindings.Resolver
