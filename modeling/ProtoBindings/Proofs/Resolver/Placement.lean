import Mathlib.Data.List.Sort
import ProtoBindings.Proofs.Resolver.History
import ProtoBindings.Proofs.Resolver.Members
import ProtoBindings.Proofs.Resolver.Unit

namespace List

variable {α β : Type} [DecidableEq β] {key : α → Option β}

theorem perm_of_keys {keys : List β} (distinct : keys.Nodup) {xs : List α}
    (known : ∀ x ∈ xs, ∀ k, key x = some k → k ∈ keys) :
    (xs.filter (fun x => (key x).isNone) ++
      keys.flatMap fun k => xs.filter (fun x => key x == some k)).Perm xs := by
  induction keys generalizing xs with
  | nil =>
    have none : ∀ x ∈ xs, (key x).isNone = true := by
      intro x member
      cases isKey : key x with
      | none => rfl
      | some k => cases known x member k isKey
    rw [filter_eq_self.mpr none]
    simp
  | cons k keys ih =>
    obtain ⟨new, distinct⟩ := nodup_cons.mp distinct
    -- The induction is for what has another key; from that the first filter takes nothing away.
    have plain : (xs.filter (fun x => !(key x == some k))).filter (fun x => (key x).isNone) =
        xs.filter (fun x => (key x).isNone) := by
      rw [filter_filter]
      refine filter_congr fun x _ => ?_
      cases key x <;> simp
    have keyed : ∀ j ∈ keys, (xs.filter (fun x => !(key x == some k))).filter
        (fun x => key x == some j) = xs.filter (fun x => key x == some j) := by
      intro j isKey
      have other : j ≠ k := fun same => new (same ▸ isKey)
      rw [filter_filter]
      refine filter_congr fun x _ => ?_
      by_cases here : key x = some j <;> simp [here, other]
    have known' : ∀ x ∈ xs.filter (fun x => !(key x == some k)), ∀ j, key x = some j → j ∈ keys := by
      intro x member j isKey
      obtain ⟨member, apart⟩ := mem_filter.mp member
      have other : j ≠ k := by
        rintro rfl
        simp [isKey] at apart
      exact (mem_cons.mp (known x member j isKey)).resolve_left other
    have rest := ih distinct known'
    rw [plain, flatMap_congr keyed] at rest
    rw [flatMap_cons]
    refine (perm_append_comm_assoc _ _ _).trans ((rest.append_left _).trans ?_)
    exact filter_append_perm _ xs

end List

namespace ProtoBindings

namespace Descriptor.Message

def sharedOneofs (message : Message) : List Nat :=
  (List.range message.oneofs.length).filter fun index => !(message.oneofFields index).isEmpty

def oneofName? (message : Message) (field : Field) : Option String :=
  field.sharedOneof?.bind fun index => message.oneofs[index.toNat]?

/-- Indices point at oneofs, the members of oneofs are single, and optional fields are alone. -/
structure Placeable (message : Message) : Prop where
  inRange : ∀ field ∈ message.fields, ∀ index, field.oneofIndex = some index →
    0 ≤ index ∧ index < message.oneofs.length
  single : ∀ field ∈ message.fields, field.sharedOneof? ≠ none → field.label ≠ .repeated
  alone : message.OptionalsAlone

theorem shared_iff {field : Field} {index : Int} : field.sharedOneof? = some index ↔
    field.isProto3Optional = false ∧ field.oneofIndex = some index := by
  rw [Field.sharedOneof?]
  cases field.isProto3Optional <;> simp

theorem mem_oneofFields {message : Message} {index : Int} {field : Field} :
    field ∈ message.oneofFields index ↔ field ∈ message.fields ∧ field.sharedOneof? = some index := by
  simp [oneofFields]

theorem mem_sharedOneofs {message : Message} {index : Nat} : index ∈ message.sharedOneofs ↔
    index < message.oneofs.length ∧
      ∃ field ∈ message.fields, field.sharedOneof? = some (index : Int) := by
  simp only [sharedOneofs, List.mem_filter, List.mem_range, Bool.not_eq_true',
    List.isEmpty_eq_false_iff_exists_mem, mem_oneofFields]

theorem sharedOneofs_increasing (message : Message) : message.sharedOneofs.Pairwise (· < ·) :=
  List.pairwise_lt_range.filter _

end Descriptor.Message

namespace Resolver

open Schema (Field FileUnit Message Oneof)

structure SameField (field : Descriptor.Field) (oneof : Option String) (f : Field) : Prop where
  name : f.name = field.name
  number : f.info.number = field.number
  deprecated : f.info.deprecated = field.deprecated
  oneof : f.info.oneof = oneof
  many : f.info.isRepeated = true ∨ f.isMap = true ↔ field.label = .repeated
  optional : f.isMap = false → f.info.isExplicitOptional = field.isProto3Optional
  scalar : ∀ type, f.element = .scalar type ↔ field.type = .scalar type

/-- All fields of a message are there, each where it belongs. -/
structure Kept (message : Descriptor.Message) (built : Message) : Prop where
  whole : ∃ fields, List.Forall₂ (fun field f => SameField field (message.oneofName? field) f)
    message.fields fields ∧ built.allFields.Perm fields
  plain : List.Forall₂ (fun field f => SameField field none f)
    (message.fields.filter (·.sharedOneof?.isNone)) built.fields
  oneofs : List.Forall₂ (fun (index : Nat) o => message.oneofs[index]? = some o.name ∧ o.fields ≠ [] ∧
    List.Forall₂ (fun field f => SameField field (some o.name) f) (message.oneofFields index) o.fields)
    message.sharedOneofs built.oneofs
  increasing : message.sharedOneofs.Pairwise (· < ·)
  synthetic : ∀ field ∈ message.fields, field.isProto3Optional = true → ∀ index ∈ message.sharedOneofs,
    field.oneofIndex ≠ some (index : Int)
  declarationOrder : built.declarationOrder = message.fields.map (·.name)

/-- A built message with the one that it was built from, and so on inwards. -/
inductive Mirrors : Descriptor.Message → Message → Prop
  | intro {message built} : built.name = message.name → (message.Placeable → Kept message built) →
      List.Forall₂ Mirrors (message.messages.filter (!·.isMapEntry)) built.messages →
      Mirrors message built

theorem FieldBuilt.same {table : SymbolTable} {field : Descriptor.Field} {oneof : Option String}
    {depth : Nat} {f : Field} (built : FieldBuilt table field oneof depth f)
    (single : oneof ≠ none → field.label ≠ .repeated) : SameField field oneof f := by
  cases built with
  | scalar type isScalar =>
    constructor <;>
      simp [ordinaryField, Field.name, Field.info, Field.isMap, Field.element, isScalar]
  | named s names =>
    have notScalar : ∀ type, s.element ≠ .scalar type := by
      obtain ⟨ref, _ | _⟩ := s <;> simp [Symbol.element]
    constructor <;>
      simp [ordinaryField, Field.name, Field.info, Field.isMap, Field.element, names _, notScalar]
  | map s entry _ _ _ _ _ names _ isEntry =>
    have isRepeated := Symbol.repeated_of_entry isEntry
    have outside : oneof = none := by
      by_contra inside
      exact single inside isRepeated
    constructor <;>
      simp [Field.name, Field.info, Field.isMap, Field.element, names _, isRepeated, outside]

theorem usedOneofs_ordered (placed : List PlacedField) : (usedOneofs placed).Pairwise (· ≤ ·) :=
  List.pairwise_mergeSort' (· ≤ ·) _

theorem nodup_usedOneofs (placed : List PlacedField) : (usedOneofs placed).Nodup :=
  List.nodup_mergeSort.mpr (List.nodup_eraseDups _)

section Message

variable {room : Room} {table : SymbolTable} {file : Descriptor.File} {scope : List String}
  {message : Descriptor.Message} {placed : List PlacedField} {built : Message}

theorem oneof_of_placed {field : Descriptor.Field} {place : PlacedField} {fullName : String}
    (placeable : message.Placeable) (member : field ∈ message.fields)
    (result : placeField depth table message fullName field = .ok place) :
    place.oneof = field.sharedOneof? ∧ SameField field (message.oneofName? field) place.field := by
  obtain ⟨index, oneof, declared, fieldBuilt⟩ := placeField_eq_ok result
  rw [realOneof_eq_shared placeable.alone member] at index declared
  refine ⟨index, ?_⟩
  rw [Descriptor.Message.oneofName?]
  cases standing : field.sharedOneof? with
  | none =>
    rw [standing] at declared
    cases declared
    exact fieldBuilt.same (by simp)
  | some i =>
    rw [standing, Option.mapM_some] at declared
    obtain ⟨name, found, same⟩ := Result.bind_eq_ok.mp declared
    cases same
    have bounds := placeable.inRange field member i (Descriptor.Message.shared_iff.mp standing).2
    rw [Option.bind_some, declaredOneof_eq_ok bounds.1 found]
    exact fieldBuilt.same fun _ => placeable.single field member (by simp [standing])

theorem MessageBuilt.allFields_eq (result : MessageBuilt room table file scope message placed built) :
    built.allFields =
    (placed.filter (·.oneof.isNone) ++ (usedOneofs placed).flatMap fun index =>
      placed.filter (·.oneof == some index)).map (·.field) := by
  have inOneofs : built.oneofs.map (·.fields) = (usedOneofs placed).map fun index =>
      (placed.filter (·.oneof == some index)).map (·.field) := by
    exact (result.oneofs.map_eq fun _ _ oneofBuilt => (buildOneof_eq_ok oneofBuilt).2.symm).symm
  rw [Message.allFields, result.fields, List.map_append, List.map_flatMap, List.flatMap_def,
    inOneofs, List.flatMap_def]

section Placeable

variable (placeable : message.Placeable) (result : MessageBuilt room table file scope message placed built)
include placeable result

theorem MessageBuilt.places_same : List.Forall₂ (fun field place =>
    place.oneof = field.sharedOneof? ∧ SameField field (message.oneofName? field) place.field)
    message.fields placed :=
  result.places.imp_of_mem fun _ member _ _ placed => oneof_of_placed placeable member placed

theorem MessageBuilt.mem_usedOneofs_iff {index : Int} : index ∈ usedOneofs placed ↔
    ∃ field ∈ message.fields, field.sharedOneof? = some index := by
  rw [result.mem_usedOneofs_iff_real]
  refine exists_congr fun field => and_congr_right fun isField => ?_
  rw [realOneof_eq_shared placeable.alone isField]

theorem MessageBuilt.usedOneofs_eq :
    usedOneofs placed = message.sharedOneofs.map fun (index : Nat) => (index : Int) := by
  have increasing : (message.sharedOneofs.map fun (index : Nat) => (index : Int)).Pairwise (· < ·) :=
    List.pairwise_map.mpr (message.sharedOneofs_increasing.imp Int.ofNat_lt.mpr)
  refine List.Perm.eq_of_pairwise' (usedOneofs_ordered placed) (increasing.imp Int.le_of_lt) ?_
  refine (List.perm_ext_iff_of_nodup (nodup_usedOneofs placed) (increasing.imp Int.ne_of_lt)).mpr ?_
  intro index
  rw [result.mem_usedOneofs_iff placeable, List.mem_map]
  constructor
  · rintro ⟨field, isField, standing⟩
    obtain ⟨nonneg, inside⟩ := placeable.inRange field isField index
      (Descriptor.Message.shared_iff.mp standing).2
    have same : (index.toNat : Int) = index := Int.toNat_of_nonneg nonneg
    exact ⟨index.toNat, Descriptor.Message.mem_sharedOneofs.mpr
      ⟨by omega, field, isField, same ▸ standing⟩, same⟩
  · rintro ⟨n, shared, rfl⟩
    exact (Descriptor.Message.mem_sharedOneofs.mp shared).2

theorem MessageBuilt.plain_same : List.Forall₂ (fun field f => SameField field none f)
    (message.fields.filter (·.sharedOneof?.isNone)) built.fields := by
  have all : List.Forall₂ (fun field f => SameField field (message.oneofName? field) f)
      (message.fields.filter (·.sharedOneof?.isNone)) built.fields := by
    rw [result.fields]
    refine (result.places_same placeable).filter_map ?_ fun _ _ placed => placed.2
    intro field _ place placed
    rw [placed.1]
  refine all.imp_of_mem fun field member f _ same => ?_
  have outside := Option.isNone_iff_eq_none.mp (List.mem_filter.mp member).2
  rwa [Descriptor.Message.oneofName?, outside, Option.bind_none] at same

theorem MessageBuilt.oneof_same {index : Nat} {name : String}
    (named : message.oneofs[index]? = some name) :
    List.Forall₂ (fun field f => SameField field (some name) f) (message.oneofFields index)
      ((placed.filter (·.oneof == some (index : Int))).map (·.field)) := by
  have all : List.Forall₂ (fun field f => SameField field (message.oneofName? field) f)
      (message.oneofFields index) ((placed.filter (·.oneof == some (index : Int))).map (·.field)) := by
    refine (result.places_same placeable).filter_map ?_ fun _ _ placed => placed.2
    intro field _ place placed
    rw [placed.1]
  refine all.imp_of_mem fun field member f _ same => ?_
  have inside := (Descriptor.Message.mem_oneofFields.mp member).2
  rwa [Descriptor.Message.oneofName?, inside, Option.bind_some, Int.toNat_natCast, named] at same

theorem MessageBuilt.oneofs_same : List.Forall₂ (fun (index : Nat) o =>
    message.oneofs[index]? = some o.name ∧ o.fields ≠ [] ∧
      List.Forall₂ (fun field f => SameField field (some o.name) f) (message.oneofFields index) o.fields)
    message.sharedOneofs built.oneofs := by
  have all := result.oneofs
  rw [result.usedOneofs_eq placeable, List.forall₂_map_left_iff] at all
  refine all.imp_of_mem fun index shared o _ oneofBuilt => ?_
  obtain ⟨declared, fields⟩ := buildOneof_eq_ok oneofBuilt
  have named : message.oneofs[index]? = some o.name :=
    declaredOneof_eq_ok (Int.natCast_nonneg index) declared
  have members := result.oneof_same placeable named
  rw [← fields] at members
  refine ⟨named, fun empty => ?_, members⟩
  obtain ⟨_, field, isField, standing⟩ := Descriptor.Message.mem_sharedOneofs.mp shared
  obtain ⟨f, member, _⟩ := members.exists_right
    (Descriptor.Message.mem_oneofFields.mpr ⟨isField, standing⟩)
  exact List.ne_nil_of_mem member empty

theorem MessageBuilt.kept : Kept message built where
  whole := by
    refine ⟨placed.map (·.field), ?_, ?_⟩
    · rw [List.forall₂_map_right_iff]
      exact (result.places_same placeable).imp fun _ _ placed => placed.2
    · rw [result.allFields_eq]
      refine (List.perm_of_keys (nodup_usedOneofs placed) fun place isPlace index standing => ?_).map _
      exact mem_usedOneofs.mpr ⟨place, isPlace, standing⟩
  plain := result.plain_same placeable
  oneofs := result.oneofs_same placeable
  increasing := message.sharedOneofs_increasing
  synthetic := by
    intro field isField optional index shared standing
    obtain ⟨_, other, isOther, inside⟩ := Descriptor.Message.mem_sharedOneofs.mp shared
    obtain ⟨notOptional, sameIndex⟩ := Descriptor.Message.shared_iff.mp inside
    have same := placeable.alone field isField optional index standing other isOther sameIndex
    rw [same, optional] at notOptional
    cases notOptional
  declarationOrder := result.declarationOrder

end Placeable

end Message

theorem buildMessage_name {room : Room} {table : SymbolTable} {file : Descriptor.File} {scope : List String}
    {message : Descriptor.Message} {built : Message}
    (result : buildMessage room table file scope message = .ok built) : built.name = message.name := by
  obtain ⟨name, fields, oneofs, messages, enums, isMapEntry⟩ := message
  simp only [buildMessage, Result.bind_eq_ok, Result.pure_eq_ok] at result
  obtain ⟨_, _, _, _, _, _, _, _, _, _, rfl⟩ := result
  rfl

mutual

theorem buildMessage_mirrors (room : Room) (table : SymbolTable) (file : Descriptor.File) (scope : List String) :
    ∀ (message : Descriptor.Message) (built : Message),
      buildMessage room table file scope message = .ok built → Mirrors message built
  | ⟨name, fields, oneofs, messages, enums, isMapEntry⟩, built, result => by
    obtain ⟨placed, whole⟩ := buildMessage_eq_ok result
    exact .intro (buildMessage_name result) (fun placeable => whole.kept placeable)
      (buildMessages_mirror room table file _ messages built.messages whole.nested)

theorem buildMessages_mirror (room : Room) (table : SymbolTable) (file : Descriptor.File) (scope : List String) :
    ∀ (messages : List Descriptor.Message) (built : List Message),
      buildMessages room table file scope messages = .ok built →
        List.Forall₂ Mirrors (messages.filter (!·.isMapEntry)) built
  | [], built, result => by
    rw [buildMessages] at result
    cases result
    exact .nil
  | message :: rest, built, result => by
    rw [buildMessages] at result
    split at result
    · rename_i isEntry
      rw [List.filter_cons_of_neg (by simp [isEntry])]
      exact buildMessages_mirror room table file scope rest built result
    · rename_i notEntry
      simp only [Result.bind_eq_ok, Result.pure_eq_ok] at result
      obtain ⟨first, firstBuilt, others, othersBuilt, rfl⟩ := result
      rw [List.filter_cons_of_pos (by simpa using notEntry)]
      exact .cons (buildMessage_mirrors room table file scope message first firstBuilt)
        (buildMessages_mirror room table file scope rest others othersBuilt)

end

/-- The messages of a file that is added mirror the declared ones, at every level. -/
theorem added_mirrors {resolver next : Resolver} {file : Descriptor.File} {unit : FileUnit}
    (added : resolver.add file = (next, .ok unit)) :
    List.Forall₂ Mirrors (file.messages.filter (!·.isMapEntry)) unit.messages := by
  obtain ⟨built, _⟩ := add_eq_ok added
  simp only [buildFile, Result.bind_eq_ok, Result.pure_eq_ok] at built
  obtain ⟨messages, built, _, _, _, _, rfl⟩ := built
  exact buildMessages_mirror _ _ file [] file.messages messages built

def parcel : Descriptor.Message where
  name := "Parcel"
  fields := [
    { name := "shop", number := 1, type := .scalar .string, oneofIndex := some 1 },
    { name := "weight", number := 2, type := .scalar .double, oneofIndex := some 0,
      isProto3Optional := true },
    { name := "stops", number := 3, type := .message, label := .repeated, typeName := ".Parcel.Stop" },
    { name := "person", number := 4, type := .scalar .string, oneofIndex := some 1 }]
  oneofs := ["_weight", "sender"]
  messages := [
    { name := "NotesEntry", isMapEntry := true },
    { name := "Stop", fields := [{ name := "place", number := 1, type := .scalar .string }] }]

theorem parcel_placeable : parcel.Placeable where
  inRange := by simp [parcel]
  single := by decide
  alone := by simp [Descriptor.Message.OptionalsAlone, parcel]

theorem parcel_mirrored : ∃ next unit,
    Resolver.add {} { name := "parcel.proto", messages := [parcel] } = (next, .ok unit) ∧
      List.Forall₂ Mirrors [parcel] unit.messages ∧ ∃ built ∈ unit.messages, Kept parcel built := by
  have succeeds :
      (Resolver.add {} { name := "parcel.proto", messages := [parcel] }).2.toOption.isSome := by
    decide +kernel
  obtain ⟨unit, returned⟩ := Result.exists_of_isSome succeeds
  have added : Resolver.add {} { name := "parcel.proto", messages := [parcel] } =
      ((Resolver.add {} { name := "parcel.proto", messages := [parcel] }).1, .ok unit) :=
    Prod.ext rfl returned
  have mirrored : List.Forall₂ Mirrors [parcel] unit.messages := added_mirrors added
  obtain ⟨built, isBuilt, mirrors⟩ := mirrored.exists_right List.mem_cons_self
  cases mirrors with
  | intro _ kept => exact ⟨_, unit, added, mirrored, built, isBuilt, kept parcel_placeable⟩

end Resolver

end ProtoBindings
