import Mathlib.Data.List.Pairwise
import ProtoBindings.Proofs.Value.Names

namespace ProtoBindings

namespace Name

def beyond (start name : String) : Option String :=
  if Text.startsWith name start then some (String.ofList (name.toList.drop start.toList.length))
  else none

theorem mem_beyond {start name rest : String} : rest ∈ beyond start name ↔ name = start ++ rest := by
  rw [beyond, Option.mem_def]
  constructor
  · intro found
    split at found
    · rename_i starts
      cases found
      obtain ⟨tail, split⟩ := List.isPrefixOf_iff_prefix.mp starts
      rw [← String.toList_inj, String.toList_append, String.toList_ofList, ← split, List.drop_left]
    · cases found
  · rintro rfl
    have starts : Text.startsWith (start ++ rest) start = true := by
      rw [Text.startsWith, List.isPrefixOf_iff_prefix, String.toList_append]
      exact List.prefix_append ..
    rw [if_pos starts, String.toList_append, List.drop_left, String.ofList_toList]

theorem append_eq_append {s t a b : String} (same : s ++ a = t ++ b) :
    (∃ rest, t = s ++ rest ∧ a = rest ++ b) ∨ ∃ rest, s = t ++ rest ∧ b = rest ++ a := by
  have lists : s.toList ++ a.toList = t.toList ++ b.toList := by
    rw [← String.toList_append, same, String.toList_append]
  rcases List.append_eq_append_iff.mp lists with ⟨rest, start, after⟩ | ⟨rest, start, after⟩
  · refine .inl ⟨String.ofList rest, ?_, ?_⟩
    · rw [← String.toList_inj, start, String.toList_append, String.toList_ofList]
    · rw [← String.toList_inj, after, String.toList_append, String.toList_ofList]
  · refine .inr ⟨String.ofList rest, ?_, ?_⟩
    · rw [← String.toList_inj, start, String.toList_append, String.toList_ofList]
    · rw [← String.toList_inj, after, String.toList_append, String.toList_ofList]

end Name

namespace Value

open Name (familyNames)
open Schema (FileUnit Message Oneof)

section Message

variable {m n : Message} {o : Oneof}

/-- What the name of a sum type has behind that of its message's class. -/
def oneofKey (m : Message) (o : Oneof) : String :=
  let key := Name.pascalCase o.name
  if (nestedClassNames m).contains (m.ref.flatName ++ key) then key ++ "Oneof" else key

theorem oneofTypeName_eq : oneofTypeName m o = m.ref.flatName ++ oneofKey m o := by
  rw [oneofTypeName, Schema.TypeRef.oneofTypeName, oneofKey]
  split
  · rw [String.append_assoc]
  · rfl

def oneofKeys (m : Message) : List String :=
  m.oneofs.flatMap fun o =>
    o.fields.map (fun f => oneofKey m o ++ Name.pascalCase f.name) ++ [oneofKey m o]

theorem oneofClassNames_eq : m.oneofs.flatMap (oneofClassNames m) =
    (oneofKeys m).map (m.ref.flatName ++ ·) := by
  rw [oneofKeys, List.map_flatMap]
  refine List.flatMap_congr fun o _ => ?_
  rw [oneofClassNames, List.map_append, List.map_map, List.map_singleton, oneofTypeName_eq]
  congr 1
  refine List.map_congr_left fun f _ => ?_
  rw [Name.variantName, Function.comp_apply, String.append_assoc]

/-- No name of the first message's oneofs is also one of the second's, whose path goes on where that of
    the first ends. -/
def KeysApart (m n : Message) : Prop :=
  ∀ rest ∈ Name.beyond m.ref.flatName n.ref.flatName, ∀ key ∈ oneofKeys n, rest ++ key ∉ oneofKeys m

theorem keys_disjoint_iff :
    List.Disjoint ((oneofKeys m).map (m.ref.flatName ++ ·)) ((oneofKeys n).map (n.ref.flatName ++ ·)) ↔
      KeysApart m n ∧ KeysApart n m := by
  constructor
  · intro disjoint
    constructor
    · intro rest isRest key isKey isOther
      have longer := Name.mem_beyond.mp isRest
      refine disjoint (List.mem_map_of_mem isOther) ?_
      rw [← String.append_assoc, ← longer]
      exact List.mem_map_of_mem isKey
    · intro rest isRest key isKey isOther
      have longer := Name.mem_beyond.mp isRest
      refine disjoint (List.mem_map_of_mem isKey) ?_
      rw [longer, String.append_assoc]
      exact List.mem_map_of_mem isOther
  · rintro ⟨apart, apart'⟩ name ofFirst ofSecond
    obtain ⟨key, isKey, rfl⟩ := List.mem_map.mp ofFirst
    obtain ⟨other, isOther, same⟩ := List.mem_map.mp ofSecond
    rcases Name.append_eq_append same with ⟨rest, start, rfl⟩ | ⟨rest, start, rfl⟩
    · exact apart' rest (Name.mem_beyond.mpr start) key isKey isOther
    · exact apart rest (Name.mem_beyond.mpr start) other isOther isKey

end Message

def oneofClasses (unit : FileUnit) : List String :=
  unit.allMessages.flatMap fun m => m.oneofs.flatMap (oneofClassNames m)

def helperStem (m : Message) (o : Oneof) : String :=
  "_" ++ m.ref.stem ++ "_" ++ Name.snakeCase o.name

def helperStems (unit : FileUnit) : List String :=
  unit.allMessages.flatMap fun m => m.oneofs.map (helperStem m)

def oneofHelpers (unit : FileUnit) : List String :=
  familyNames [("_to_idiom", helperStems unit), ("_to_host", helperStems unit)]

def plainFunctions (unit : FileUnit) : List String :=
  familyNames [("_to_idiom", enumStems unit ++ messageStems unit),
    ("_to_host", enumStems unit ++ messageStems unit), ("_to_bytes", messageStems unit),
    ("_from_bytes", messageStems unit)]

/-- The names for oneofs are distinct, and no other class or function has one of them. -/
structure OneofsClear (unit : FileUnit) : Prop where
  classes : (oneofClasses unit).Nodup
  classesNew : ∀ name ∈ oneofClasses unit, name ∉ classNames unit
  helpers : (oneofHelpers unit).Nodup
  helpersNew : ∀ name ∈ oneofHelpers unit, name ∉ plainFunctions unit

/-- What keeps the names for oneofs clear: those of one message are distinct, what the path of a message
    or of another class adds to that of a message is not spelled by oneofs of the latter, and the snake
    cases of paths and oneofs are no snake case of a path and no two of them are one. -/
structure OneofsApart (unit : FileUnit) : Prop where
  within : ∀ m ∈ unit.allMessages, (oneofKeys m).Nodup
  across : ∀ m ∈ unit.allMessages, ∀ n ∈ unit.allMessages, m.ref.flatName ≠ n.ref.flatName →
    KeysApart m n
  classes : ∀ m ∈ unit.allMessages, ∀ name ∈ classNames unit,
    ∀ rest ∈ Name.beyond m.ref.flatName name, rest ∉ oneofKeys m
  helpers : (helperStems unit).Nodup
  functions : ∀ stem ∈ helperStems unit, stem ∉ enumStems unit ++ messageStems unit

section Apart

variable {unit : FileUnit}

theorem flatNames_nodup (distinct : (classNames unit).Nodup) :
    (unit.allMessages.map (·.ref.flatName)).Nodup := by
  have ofMessages : (unit.allMessages.map (·.ref.className)).Nodup :=
    (List.nodup_append.mp distinct).2.1
  have escaped : unit.allMessages.map (·.ref.className) =
      (unit.allMessages.map (·.ref.flatName)).map Name.escape := by
    rw [List.map_map]
    rfl
  rw [escaped] at ofMessages
  exact ofMessages.of_map _

theorem oneofClasses_eq : oneofClasses unit =
    unit.allMessages.flatMap fun m => (oneofKeys m).map (m.ref.flatName ++ ·) :=
  List.flatMap_congr fun _ _ => oneofClassNames_eq

theorem oneofClasses_nodup_iff (distinct : (unit.allMessages.map (·.ref.flatName)).Nodup) :
    (oneofClasses unit).Nodup ↔ (∀ m ∈ unit.allMessages, (oneofKeys m).Nodup) ∧
      ∀ m ∈ unit.allMessages, ∀ n ∈ unit.allMessages, m.ref.flatName ≠ n.ref.flatName →
        KeysApart m n := by
  have injective (m : Message) : Function.Injective (m.ref.flatName ++ ·) := fun s t same => by
    simpa using same
  rw [oneofClasses_eq, List.nodup_flatMap]
  refine and_congr ?_ ?_
  · exact forall_congr' fun m => imp_congr_right fun _ => List.nodup_map_iff (injective m)
  · constructor
    · intro disjoint m isMessage n isOther different
      have symmetric : Std.Symm (Function.onFun List.Disjoint
          fun m : Message => (oneofKeys m).map (m.ref.flatName ++ ·)) := ⟨fun _ _ => List.disjoint_symm⟩
      have other : m ≠ n := fun same => different (congrArg (·.ref.flatName) same)
      exact (keys_disjoint_iff.mp (disjoint.forall isMessage isOther other)).1
    · intro apart
      refine distinct.of_map.pairwise_of_forall_ne fun m isMessage n isOther other => ?_
      have different : m.ref.flatName ≠ n.ref.flatName := fun same =>
        other (List.inj_on_of_nodup_map distinct isMessage isOther same)
      exact keys_disjoint_iff.mpr
        ⟨apart m isMessage n isOther different, apart n isOther m isMessage different.symm⟩

theorem oneofClasses_new_iff : (∀ name ∈ oneofClasses unit, name ∉ classNames unit) ↔
    ∀ m ∈ unit.allMessages, ∀ name ∈ classNames unit,
      ∀ rest ∈ Name.beyond m.ref.flatName name, rest ∉ oneofKeys m := by
  rw [oneofClasses_eq]
  constructor
  · intro new m isMessage name isClass rest isRest isKey
    refine new name (List.mem_flatMap.mpr ⟨m, isMessage, ?_⟩) isClass
    rw [Name.mem_beyond.mp isRest]
    exact List.mem_map_of_mem isKey
  · intro apart name ofOneof isClass
    obtain ⟨m, isMessage, ofMessage⟩ := List.mem_flatMap.mp ofOneof
    obtain ⟨key, isKey, rfl⟩ := List.mem_map.mp ofMessage
    exact apart m isMessage _ isClass key (Name.mem_beyond.mpr rfl) isKey

theorem oneofHelpers_nodup_iff : (oneofHelpers unit).Nodup ↔ (helperStems unit).Nodup := by
  have apart : ([("_to_idiom", helperStems unit), ("_to_host", helperStems unit)].map
      (·.1)).Pairwise Name.Apart := by
    have endings : ["_to_idiom", "_to_host"].Pairwise Name.Apart := by decide
    exact endings
  rw [oneofHelpers, Name.nodup_familyNames apart]
  simp only [List.forall_mem_cons, List.not_mem_nil, false_imp_iff, implies_true, and_true, and_self]

theorem oneofHelpers_new_iff : (∀ name ∈ oneofHelpers unit, name ∉ plainFunctions unit) ↔
    ∀ stem ∈ helperStems unit, stem ∉ enumStems unit ++ messageStems unit := by
  have endings : ∀ ending ∈ ["_to_idiom", "_to_host"],
      ∀ other ∈ ["_to_idiom", "_to_host", "_to_bytes", "_from_bytes"],
        ending = other ∨ Name.Apart ending other := by decide
  rw [oneofHelpers, plainFunctions, Name.familyNames_disjoint_iff fun family isFamily other isOther =>
    endings _ (List.mem_map_of_mem isFamily) _ (List.mem_map_of_mem isOther)]
  simp

theorem oneofsClear_iff (distinct : (classNames unit).Nodup) : OneofsClear unit ↔ OneofsApart unit := by
  have classes := oneofClasses_nodup_iff (flatNames_nodup distinct)
  constructor
  · intro clear
    obtain ⟨within, across⟩ := classes.mp clear.classes
    exact ⟨within, across, oneofClasses_new_iff.mp clear.classesNew,
      oneofHelpers_nodup_iff.mp clear.helpers, oneofHelpers_new_iff.mp clear.helpersNew⟩
  · intro apart
    exact ⟨classes.mpr ⟨apart.within, apart.across⟩, oneofClasses_new_iff.mpr apart.classes,
      oneofHelpers_nodup_iff.mpr apart.helpers, oneofHelpers_new_iff.mpr apart.functions⟩

end Apart

section Module

variable {mapper : Mapper} {unit : FileUnit} {module : Module}
  (result : Module.ofUnit mapper unit = .ok module)
include result

theorem Module.classes_perm : (module.enums.map (·.name) ++ module.declarations.map (·.name)).Perm
    (classNames unit ++ oneofClasses unit) := by
  obtain ⟨_, _, built⟩ := Module.ofUnit_eq_ok result
  have enums : module.enums.map (·.name) = unit.allEnums.map (·.ref.className) := by
    rw [built.enums, List.map_map]
    rfl
  have split := List.flatMap_append_perm unit.allMessages
    (fun m => m.oneofs.flatMap (oneofClassNames m)) fun m => [m.ref.className]
  rw [enums, Module.declarations_map_name result, classNames, List.append_assoc]
  refine (split.symm.trans ?_).append_left _
  rw [← List.map_eq_flatMap]
  exact List.perm_append_comm

theorem Module.functions_perm : (module.functions.map (·.name)).Perm
    (plainFunctions unit ++ oneofHelpers unit) := by
  have plain : plainFunctions unit =
      unit.allEnums.map (·.ref.readerName) ++ unit.allMessages.map (·.ref.readerName) ++
      (unit.allEnums.map (·.ref.writerName) ++ unit.allMessages.map (·.ref.writerName)) ++
      unit.allMessages.map (·.ref.stem ++ "_to_bytes") ++
      unit.allMessages.map (·.ref.stem ++ "_from_bytes") := by
    simp only [plainFunctions, familyNames, enumStems, messageStems, List.flatMap_cons,
      List.flatMap_nil, List.append_nil, List.map_append, List.map_map, List.append_assoc]
    rfl
  have helpers : oneofHelpers unit =
      unit.allMessages.flatMap (fun m => m.oneofs.map (oneofReaderName m)) ++
      unit.allMessages.flatMap (fun m => m.oneofs.map (oneofWriterName m)) := by
    simp only [oneofHelpers, familyNames, helperStems, List.flatMap_cons, List.flatMap_nil,
      List.append_nil, List.map_flatMap, List.map_map]
    rfl
  rw [Module.functions_map_name result, List.perm_iff_count, plain, helpers]
  intro name
  simp only [functionNames_eq, count_flatMap_append, List.count_append, List.map_eq_flatMap]
  omega

end Module

instance (m n : Message) : Decidable (KeysApart m n) :=
  inferInstanceAs (Decidable (∀ rest ∈ Name.beyond m.ref.flatName n.ref.flatName,
    ∀ key ∈ oneofKeys n, rest ++ key ∉ oneofKeys m))

instance (unit : FileUnit) : Decidable (OneofsApart unit) :=
  decidable_of_iff ((∀ m ∈ unit.allMessages, (oneofKeys m).Nodup) ∧
      (∀ m ∈ unit.allMessages, ∀ n ∈ unit.allMessages, m.ref.flatName ≠ n.ref.flatName →
        KeysApart m n) ∧
      (∀ m ∈ unit.allMessages, ∀ name ∈ classNames unit,
        ∀ rest ∈ Name.beyond m.ref.flatName name, rest ∉ oneofKeys m) ∧
      (helperStems unit).Nodup ∧
      ∀ stem ∈ helperStems unit, stem ∉ enumStems unit ++ messageStems unit)
    ⟨fun ⟨within, across, classes, helpers, functions⟩ => ⟨within, across, classes, helpers, functions⟩,
      fun ⟨within, across, classes, helpers, functions⟩ => ⟨within, across, classes, helpers, functions⟩⟩

/-- A value module has the classes and functions of its messages and enums, and apart from these only
    those of oneofs. If its classes are distinct, the names for oneofs are clear exactly if no oneof
    spells what another oneof or another path does. -/
theorem oneofs_clear_iff {mapper : Mapper} {unit : FileUnit} {module : Module}
    (result : Module.ofUnit mapper unit = .ok module) (distinct : (classNames unit).Nodup) :
    (module.enums.map (·.name) ++ module.declarations.map (·.name)).Perm
      (classNames unit ++ oneofClasses unit) ∧
    (module.functions.map (·.name)).Perm (plainFunctions unit ++ oneofHelpers unit) ∧
    (OneofsClear unit ↔ OneofsApart unit) :=
  ⟨Module.classes_perm result, Module.functions_perm result, oneofsClear_iff distinct⟩

section Examples

def card : Descriptor.File where
  name := "card.proto"
  messages := [{
    name := "Card"
    fields := [
      { name := "phone", number := 1, type := .scalar .string, oneofIndex := some 0 },
      { name := "postal_code", number := 2, type := .scalar .string, oneofIndex := some 0 }]
    oneofs := ["contact"]
    messages := [{ name := "Contact" }] }]

theorem card_oneofs_clear : OfFile card fun unit _ =>
    (classNames unit).Nodup ∧ OneofsClear unit ∧ oneofClasses unit =
      ["CardContactOneofPhone", "CardContactOneofPostalCode", "CardContactOneof"] := by
  have apart : OfFile card fun unit _ => (classNames unit).Nodup ∧ OneofsApart unit ∧
      oneofClasses unit =
        ["CardContactOneofPhone", "CardContactOneofPostalCode", "CardContactOneof"] := by
    decide +kernel
  obtain ⟨resolver, resolved, unit, isUnit, module, result, distinct, apart, classes⟩ := apart
  have clear := (oneofs_clear_iff result distinct).2.2.mpr apart
  exact ⟨resolver, resolved, unit, isUnit, module, result, distinct, clear, classes⟩

def scopeNames (m : Message) : List String :=
  m.declarationOrder ++ m.oneofs.map (·.name) ++ m.messages.map (·.name) ++ m.enums.map (·.name)

/-- A oneof that is called like a message next to its own one, and two oneofs that spell one name with
    the names of their messages. -/
def orders : Descriptor.File where
  name := "orders.proto"
  messages := [
    { name := "Person"
      fields := [{ name := "email", number := 1, type := .scalar .string, oneofIndex := some 0 }]
      oneofs := ["contact"] },
    { name := "PersonContact" },
    { name := "Order"
      fields := [{ name := "sku", number := 1, type := .scalar .string, oneofIndex := some 0 }]
      oneofs := ["item_list"] },
    { name := "OrderItem"
      fields := [{ name := "key", number := 1, type := .scalar .string, oneofIndex := some 0 }]
      oneofs := ["list"] }]

theorem orders_bind_twice : OfFile orders fun unit module =>
    (∀ m ∈ unit.allMessages, (scopeNames m).Nodup) ∧ (classNames unit).Nodup ∧
      (module.declarations.map (·.name)).count "PersonContact" = 2 ∧
      (module.declarations.map (·.name)).count "OrderItemList" = 2 ∧
      (module.functions.map (·.name)).count "_order_item_list_to_idiom" = 2 := by decide +kernel

end Examples

end Value

end ProtoBindings
