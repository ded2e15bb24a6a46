import Mathlib.Data.List.Nodup
import ProtoBindings.Proofs.Name.Reserved
import ProtoBindings.Proofs.Value.Definitions

namespace ProtoBindings.Value

open Code (Expr Function)
open Schema (EnumType EnumValue)

inductive Datum
  | number (n : Int)
  | member (n : Int)
  deriving DecidableEq, Repr

def Datum.key : Datum → Int
  | number n | member n => n

def lookup (entries : List (Datum × Datum)) (key : Datum) : Option Datum :=
  (entries.reverse.find? (·.1.key == key.key)).map (·.2)

/-- The number of the member that the enum class has under a name. What else it may have under a name
    that it does not take for a member is no number of a member. -/
def memberNumber (e : EnumType) (name : String) : Option Int :=
  ((enumClass e).ownMembers.find? (·.name == name)).map (·.number)

def hostNumber (e : EnumType) (name : String) : Option Int :=
  (e.values.find? (·.name == name)).map (·.number)

def tableOperand (e : EnumType) : Expr → Option Datum
  | .number n => some (.number n)
  | .attribute (.name owner) name =>
    if owner = e.ref.className then (memberNumber e name).map .member else none
  | .call (.attribute host method) (.positional (.string name) .nil) =>
    if host = (hostClass e.ref).expr ∧ method = "Value" then (hostNumber e name).map .number else none
  | _ => none

def tableEntry (e : EnumType) (entry : Expr × Expr) : Option (Datum × Datum) :=
  return (← tableOperand e entry.1, ← tableOperand e entry.2)

def EnumTables.memberExpr (t : EnumTables) (entry : TableEntry) : Expr :=
  .attribute (.name t.className) entry.member

def fromHostEntries (e : EnumType) : Option (List (Datum × Datum)) :=
  ((enumTables e).fromHost.map fun entry =>
    (entry.host, (enumTables e).memberExpr entry)).mapM (tableEntry e)

def toHostEntries (e : EnumType) : Option (List (Datum × Datum)) :=
  ((enumTables e).toHost.map fun entry =>
    ((enumTables e).memberExpr entry, entry.host)).mapM (tableEntry e)

def tableNamed (e : EnumType) (name : String) : Option (List (Datum × Datum)) :=
  if name = EnumTables.fromHostName (enumTables e).constant then fromHostEntries e
  else if name = EnumTables.toHostName (enumTables e).constant then toHostEntries e
  else none

section Call

variable (e : EnumType) (parameter : String) (argument : Datum)

/-- Inside a function the parameter hides what the module calls by its name. An argument has no
    attributes that are names of members. -/
def bodyOperand : Expr → Option Datum
  | .name id => if id = parameter then some argument else none
  | .attribute (.name owner) name =>
    if owner = parameter then none else tableOperand e (.attribute (.name owner) name)
  | _ => none

def bodyTable (name : String) : Option (List (Datum × Datum)) :=
  if name = parameter then none else tableNamed e name

def bodyResult : Expr → Option Datum
  | .call (.attribute (.name table) "get") (.positional key (.positional fallback .nil)) => do
    let entries ← bodyTable e parameter table
    let key ← bodyOperand e parameter argument key
    let fallback ← bodyOperand e parameter argument fallback
    return (lookup entries key).getD fallback
  | .item (.name table) (.positional key .nil) => do
    lookup (← bodyTable e parameter table) (← bodyOperand e parameter argument key)
  | _ => none

end Call

def callFunction (e : EnumType) (f : Function) (argument : Datum) : Option Datum :=
  match f.params, f.body with
  | [.named parameter _ none], [.ret result] => bodyResult e parameter argument result
  | _, _ => none

def enumRead (e : EnumType) : Datum → Option Datum := callFunction e (enumReader e)

def enumWrite (e : EnumType) : Datum → Option Datum := callFunction e (enumWriter e)

/-- Each value is a member of the class. Declared numbers and members survive the way to the other side
    and back, and all other numbers become the member that stands for them. -/
structure RoundTrips (e : EnumType) : Prop where
  values : ∀ value ∈ e.values, memberNumber e (Name.escape value.name) = some value.number
  declared : ∀ n ∈ e.numbers, (enumRead e (.number n)).bind (enumWrite e) = some (.number n)
  undeclared : ∀ n ∉ e.numbers, ∃ sentinel, memberNumber e Schema.unrecognized = some sentinel ∧
    enumRead e (.number n) = some (.member sentinel)
  members : ∀ member ∈ (enumClass e).ownMembers,
    (enumWrite e (.member member.number)).bind (enumRead e) = some (.member member.number)
  sentinel : e.declaresUnrecognized = false → e.unrecognizedNumber ∉ e.numbers

theorem lookup_map {key value : Int → Datum} (faithful : ∀ n, (key n).key = n) (numbers : List Int)
    (k : Datum) :
    lookup (numbers.map fun n => (key n, value n)) k =
      if k.key ∈ numbers then some (value k.key) else none := by
  rw [lookup, ← List.map_reverse, List.find?_map, Option.map_map]
  simp only [Function.comp_def, faithful]
  by_cases present : k.key ∈ numbers
  · have isFound : (numbers.reverse.find? (· == k.key)).isSome = true := by
      simpa using present
    obtain ⟨n, found⟩ := Option.isSome_iff_exists.mp isFound
    have same : n = k.key := by simpa using List.find?_some found
    rw [found, same, if_pos present]
    rfl
  · have missing : numbers.reverse.find? (· == k.key) = none := by
      simpa using fun n isNumber (same : n = k.key) => present (same ▸ isNumber)
    rw [missing, if_neg present]
    rfl

theorem mapM_map_eq_some {α β γ : Type} {f : β → Option γ} {g : α → β} {h : α → γ} {items : List α}
    (each : ∀ item ∈ items, f (g item) = some (h item)) :
    (items.map g).mapM f = some (items.map h) := by
  induction items with
  | nil => rfl
  | cons first rest ih =>
    have others := ih fun item isItem => each item (List.mem_cons_of_mem _ isItem)
    rw [List.map_cons, List.mapM_cons, each first List.mem_cons_self, others]
    rfl

theorem escape_eq_unrecognized {name : String} :
    Name.escape name = Schema.unrecognized ↔ name = Schema.unrecognized := by
  have kept : Name.escape name = Schema.unrecognized ++ "" ↔ name = Schema.unrecognized ++ "" :=
    Name.escape_eq_append_iff (by decide +kernel)
  rwa [String.append_empty] at kept

theorem freeNumber_notMem (numbers : List Int) : Schema.freeNumber numbers ∉ numbers := by
  rw [Schema.freeNumber]
  split
  case isFalse free => simpa using free
  case isTrue taken =>
    have nonempty : numbers ≠ [] := List.ne_nil_of_mem (List.contains_iff_mem.mp taken)
    have smallest := List.min?_eq_some_min nonempty
    rw [smallest, Option.getD_some]
    intro isNumber
    have := List.min_le_of_mem isNumber
    omega

section Numbers

variable (e : EnumType)

def namedNumbers : List Int := (e.values.filter (·.name != Schema.unrecognized)).map (·.number)

theorem isMemberName_unrecognized (className : String) :
    Code.isMemberName className Schema.unrecognized = true := by
  have shown : Code.Shown Schema.unrecognized := by decide
  have plain : (("_" ++ className ++ "__").toList.isPrefixOf Schema.unrecognized.toList) = false := by
    simp [Schema.unrecognized, List.isPrefixOf]
  simp only [Code.isMemberName, Code.nameInClass_of_shown shown, plain, Bool.false_and]
  decide +kernel

theorem memberNumber_eq_find (distinct : ((enumClass e).members.map (·.name)).Nodup) (name : String)
    (taken : Code.isMemberName e.ref.className name = true) :
    memberNumber e name = ((enumClass e).members.find? (·.name == name)).map (·.number) := by
  have same (member : EnumMember) : (Code.isMemberName (enumClass e).name member.name = true ∧
      (member.name == name) = true) ↔ (member.name == name) = true := by
    refine and_iff_right_of_imp fun named => ?_
    rw [beq_iff_eq.mp named]
    exact taken
  simp only [memberNumber, EnumClass.ownMembers, if_pos distinct, List.find?_filter, same,
    Bool.decide_eq_true]

theorem isMemberName_of_memberNumber {name : String} {n : Int} (found : memberNumber e name = some n) :
    Code.isMemberName e.ref.className name = true := by
  obtain ⟨member, isFound, _⟩ := Option.map_eq_some_iff.mp found
  have named : member.name = name := by simpa using List.find?_some isFound
  exact named ▸ (EnumClass.mem_ownMembers (List.mem_of_find?_eq_some isFound)).2

theorem memberNumber_unrecognized (distinct : ((enumClass e).members.map (·.name)).Nodup) :
    memberNumber e Schema.unrecognized = some e.unrecognizedNumber := by
  have escaped (value : EnumValue) :
      (Name.escape value.name == Schema.unrecognized) = (value.name == Schema.unrecognized) := by
    rw [Bool.eq_iff_iff, beq_iff_eq, beq_iff_eq, escape_eq_unrecognized]
  rw [memberNumber_eq_find e distinct _ (isMemberName_unrecognized _), enumClass,
    EnumType.unrecognizedNumber]
  simp only [List.find?_append, List.find?_map, Function.comp_def, escaped]
  cases found : e.values.find? (·.name == Schema.unrecognized) with
  | some value => simp
  | none =>
    have undeclared : e.declaresUnrecognized = false := by
      simpa [EnumType.declaresUnrecognized] using found
    simp [undeclared]

variable {e}

theorem unrecognizedNumber_undeclared (undeclared : e.declaresUnrecognized = false) :
    e.unrecognizedNumber = Schema.freeNumber e.numbers := by
  have missing : e.values.find? (·.name == Schema.unrecognized) = none := by
    simpa [EnumType.declaresUnrecognized] using undeclared
  rw [EnumType.unrecognizedNumber, missing]

theorem unrecognizedNumber_notMem (undeclared : e.declaresUnrecognized = false) :
    e.unrecognizedNumber ∉ e.numbers := by
  rw [unrecognizedNumber_undeclared undeclared]
  exact freeNumber_notMem e.numbers

theorem unrecognizedNumber_mem (declared : e.declaresUnrecognized = true) :
    e.unrecognizedNumber ∈ e.numbers := by
  rw [EnumType.declaresUnrecognized, List.any_eq_true] at declared
  have isFound := List.find?_isSome.mpr declared
  obtain ⟨value, found⟩ := Option.isSome_iff_exists.mp isFound
  rw [EnumType.unrecognizedNumber, found]
  exact List.mem_map_of_mem (List.mem_of_find?_eq_some found)

variable (distinct : (e.values.map (Name.escape ·.name)).Nodup)
include distinct

theorem hostNumber_value {value : EnumValue} (isValue : value ∈ e.values) :
    hostNumber e value.name = some value.number := by
  have names : (e.values.map (·.name)).Nodup := by
    rw [← Function.comp_def Name.escape, ← List.map_map] at distinct
    exact List.Nodup.of_map Name.escape distinct
  rw [hostNumber, List.find?_of_nodup names isValue, Option.map_some]

theorem members_distinct : ((enumClass e).members.map (·.name)).Nodup := by
  have names : (enumClass e).members.map (·.name) = e.values.map (Name.escape ·.name) ++
      if e.declaresUnrecognized then [] else [Schema.unrecognized] := by
    rw [enumClass, List.map_append, List.map_map]
    split <;> rfl
  rw [names]
  split
  · rwa [List.append_nil]
  · rename_i undeclared
    refine List.nodup_append.mpr ⟨distinct, List.nodup_singleton _, fun name isName other isOther => ?_⟩
    obtain ⟨value, isValue, rfl⟩ := List.mem_map.mp isName
    rw [List.mem_singleton.mp isOther]
    intro same
    refine undeclared (List.any_eq_true.mpr ⟨value, isValue, ?_⟩)
    exact beq_iff_eq.mpr (escape_eq_unrecognized.mp same)

theorem memberNumber_value {value : EnumValue} (isValue : value ∈ e.values)
    (taken : Code.isMemberName e.ref.className (Name.escape value.name) = true) :
    memberNumber e (Name.escape value.name) = some value.number := by
  have found := List.find?_of_nodup distinct isValue
  rw [memberNumber_eq_find e (members_distinct distinct) _ taken]
  simp only [enumClass, List.find?_append, List.find?_map, Function.comp_def, found,
    Option.map_some, Option.some_or]

theorem mem_numbers_iff {n : Int} : n ∈ e.numbers ↔
    n ∈ namedNumbers e ∨ e.declaresUnrecognized = true ∧ n = e.unrecognizedNumber := by
  constructor
  · intro isNumber
    obtain ⟨value, isValue, rfl⟩ := List.mem_map.mp isNumber
    by_cases named : value.name = Schema.unrecognized
    · right
      have escaped : Name.escape value.name = Schema.unrecognized := escape_eq_unrecognized.mpr named
      have found := memberNumber_value distinct isValue (escaped ▸ isMemberName_unrecognized _)
      rw [escaped, memberNumber_unrecognized e (members_distinct distinct), Option.some_inj] at found
      refine ⟨?_, found.symm⟩
      rw [EnumType.declaresUnrecognized, List.any_eq_true]
      exact ⟨value, isValue, beq_iff_eq.mpr named⟩
    · left
      exact List.mem_map_of_mem (List.mem_filter.mpr ⟨isValue, bne_iff_ne.mpr named⟩)
  · rintro (named | ⟨declared, rfl⟩)
    · obtain ⟨value, isNamed, rfl⟩ := List.mem_map.mp named
      exact List.mem_map_of_mem (List.mem_filter.mp isNamed).1
    · exact unrecognizedNumber_mem declared

theorem member_number {member : EnumMember} (isMember : member ∈ (enumClass e).members) :
    member.number ∈ namedNumbers e ∨ member.number = e.unrecognizedNumber := by
  rw [enumClass, List.mem_append] at isMember
  rcases isMember with ofValue | isSentinel
  · obtain ⟨value, isValue, rfl⟩ := List.mem_map.mp ofValue
    have isNumber : value.number ∈ e.numbers := List.mem_map_of_mem isValue
    exact ((mem_numbers_iff distinct).mp isNumber).imp_right (·.2)
  · right
    split at isSentinel
    · cases isSentinel
    · rw [List.mem_singleton.mp isSentinel]

end Numbers

section Tables

variable {e : EnumType}

theorem tableEntry_eq_some {key value : Expr} {k v : Datum} (isKey : tableOperand e key = some k)
    (isValue : tableOperand e value = some v) : tableEntry e (key, value) = some (k, v) := by
  simp [tableEntry, isKey, isValue]

theorem tableOperand_member (name : String) (host : Expr) :
    tableOperand e ((enumTables e).memberExpr ⟨name, host⟩) = (memberNumber e name).map .member := by
  simp [tableOperand, EnumTables.memberExpr, enumTables]

theorem tableOperand_host (name : String) :
    tableOperand e (((hostClass e.ref).expr.attribute "Value").apply [.string name]) =
      (hostNumber e name).map .number := by
  simp [tableOperand, Expr.apply, Code.Arguments.ofList]

theorem toHostEntries_append (distinct : ((enumClass e).members.map (·.name)).Nodup)
    {entries : List (Datum × Datum)} (named : ((enumTables e).fromHost.map fun entry =>
      ((enumTables e).memberExpr entry, entry.host)).mapM (tableEntry e) = some entries) :
    toHostEntries e =
      some (entries ++ [(.member e.unrecognizedNumber, .number e.unrecognizedNumber)]) := by
  have sentinel : tableEntry e ((enumTables e).memberExpr
      ⟨Schema.unrecognized, .number e.unrecognizedNumber⟩, .number e.unrecognizedNumber) =
        some (.member e.unrecognizedNumber, .number e.unrecognizedNumber) := by
    refine tableEntry_eq_some ?_ rfl
    rw [tableOperand_member, memberNumber_unrecognized e distinct, Option.map_some]
  have toHost : (enumTables e).toHost = (enumTables e).fromHost ++
      [⟨Schema.unrecognized, .number e.unrecognizedNumber⟩] := rfl
  rw [toHostEntries, toHost, List.map_append, List.mapM_append, named, List.map_singleton,
    List.mapM_cons, List.mapM_nil, sentinel]
  rfl

theorem value_taken (takes : (enumClass e).TakesNames) {value : EnumValue} (isValue : value ∈ e.values) :
    Code.isMemberName e.ref.className (Name.escape value.name) = true := by
  have isMember : ⟨Name.escape value.name, value.number⟩ ∈ (enumClass e).members :=
    List.mem_append_left _ (List.mem_map_of_mem isValue)
  have taken := takes.each ⟨Name.escape value.name, value.number⟩ isMember
  exact taken

theorem takesNames_of_values (distinct : (e.values.map (Name.escape ·.name)).Nodup)
    (taken : ∀ value ∈ e.values, Code.isMemberName e.ref.className (Name.escape value.name) = true) :
    (enumClass e).TakesNames := by
  refine ⟨members_distinct distinct, fun member isMember => ?_⟩
  rw [enumClass, List.mem_append] at isMember
  rcases isMember with ofValue | isSentinel
  · obtain ⟨value, isValue, rfl⟩ := List.mem_map.mp ofValue
    exact taken value isValue
  · split at isSentinel
    · cases isSentinel
    · rw [List.mem_singleton.mp isSentinel]
      exact isMemberName_unrecognized _

variable (distinct : (e.values.map (Name.escape ·.name)).Nodup)
include distinct

theorem tableOperand_hostValue {value : EnumValue} (isValue : value ∈ e.values) :
    tableOperand e (((hostClass e.ref).expr.attribute "Value").apply [.string value.name]) =
      some (.number value.number) := by
  rw [tableOperand_host, hostNumber_value distinct isValue, Option.map_some]

variable (takes : (enumClass e).TakesNames)
include takes

theorem tableOperand_value {value : EnumValue} (isValue : value ∈ e.values) (host : Expr) :
    tableOperand e ((enumTables e).memberExpr ⟨Name.escape value.name, host⟩) =
      some (.member value.number) := by
  rw [tableOperand_member, memberNumber_value distinct isValue (value_taken takes isValue),
    Option.map_some]

theorem fromHostEntries_eq :
    fromHostEntries e = some ((namedNumbers e).map fun n => (.number n, .member n)) := by
  rw [fromHostEntries, namedNumbers, enumTables, List.map_map, List.map_map]
  refine mapM_map_eq_some fun value isNamed => ?_
  have isValue := (List.mem_filter.mp isNamed).1
  exact tableEntry_eq_some (tableOperand_hostValue distinct isValue)
    (tableOperand_value distinct takes isValue _)

theorem toHostEntries_eq :
    toHostEntries e =
      some ((namedNumbers e ++ [e.unrecognizedNumber]).map fun n => (.member n, .number n)) := by
  have named : (((enumTables e).fromHost).map fun entry =>
      ((enumTables e).memberExpr entry, entry.host)).mapM (tableEntry e) =
        some ((namedNumbers e).map fun n => (.member n, .number n)) := by
    rw [namedNumbers, enumTables, List.map_map, List.map_map]
    refine mapM_map_eq_some fun value isNamed => ?_
    have isValue := (List.mem_filter.mp isNamed).1
    exact tableEntry_eq_some (tableOperand_value distinct takes isValue _)
      (tableOperand_hostValue distinct isValue)
  rw [toHostEntries_append takes.distinct named, List.map_append, List.map_singleton]

end Tables

section Functions

theorem fromHostName_ne_number (constant : String) : EnumTables.fromHostName constant ≠ "number" := by
  intro same
  have characters := congrArg String.toList same
  simp [EnumTables.fromHostName] at characters

theorem toHostName_ne_value (constant : String) : EnumTables.toHostName constant ≠ "value" := by
  intro same
  have characters := congrArg String.toList same
  simp [EnumTables.toHostName] at characters

theorem toHostName_ne_fromHostName (constant : String) :
    EnumTables.toHostName constant ≠ EnumTables.fromHostName constant := by
  intro same
  have lengths := congrArg String.length same
  simp only [EnumTables.fromHostName, EnumTables.toHostName, String.length_append] at lengths
  have : "_TO_HOST".length ≠ "_FROM_HOST".length := by decide
  omega

variable {e : EnumType}

theorem enumRead_eq (d : Datum) : enumRead e d = (do
    let entries ← bodyTable e "number" (EnumTables.fromHostName e.ref.constantStem)
    let fallback ← bodyOperand e "number" d
      (.attribute (.name e.ref.className) Schema.unrecognized)
    return (lookup entries d).getD fallback) := rfl

theorem enumWrite_eq (d : Datum) : enumWrite e d = (do
    lookup (← bodyTable e "value" (EnumTables.toHostName e.ref.constantStem)) d) := rfl

theorem enumRead_hidden (hidden : e.ref.className = "number") (d : Datum) : enumRead e d = none := by
  have fallback : bodyOperand e "number" d
      (.attribute (.name e.ref.className) Schema.unrecognized) = none := by
    rw [bodyOperand, if_pos hidden]
  rw [enumRead_eq, fallback]
  cases bodyTable e "number" (EnumTables.fromHostName e.ref.constantStem) <;> rfl

variable (distinct : (e.values.map (Name.escape ·.name)).Nodup) (takes : (enumClass e).TakesNames)
include distinct takes

theorem enumRead_number (visible : e.ref.className ≠ "number") (n : Int) :
    enumRead e (.number n) =
      some (.member (if n ∈ namedNumbers e then n else e.unrecognizedNumber)) := by
  have table : bodyTable e "number" (EnumTables.fromHostName e.ref.constantStem) =
      some ((namedNumbers e).map fun n => (.number n, .member n)) := by
    rw [bodyTable, if_neg (fromHostName_ne_number _), ← fromHostEntries_eq distinct takes]
    exact if_pos rfl
  have fallback : bodyOperand e "number" (.number n)
      (.attribute (.name e.ref.className) Schema.unrecognized) =
        some (.member e.unrecognizedNumber) := by
    rw [bodyOperand, if_neg visible, tableOperand, if_pos rfl,
      memberNumber_unrecognized e takes.distinct]
    rfl
  have found := @lookup_map .number .member (fun _ => rfl) (namedNumbers e) (.number n)
  rw [enumRead_eq, table, fallback]
  by_cases named : n ∈ namedNumbers e
  · have held := found.trans (if_pos named)
    simp [held, named, Datum.key]
  · have missing := found.trans (if_neg named)
    simp [missing, named]

theorem enumWrite_member (n : Int) :
    enumWrite e (.member n) =
      if n ∈ namedNumbers e ++ [e.unrecognizedNumber] then some (.number n) else none := by
  have table : bodyTable e "value" (EnumTables.toHostName e.ref.constantStem) =
      some ((namedNumbers e ++ [e.unrecognizedNumber]).map fun n => (.member n, .number n)) := by
    rw [bodyTable, if_neg (toHostName_ne_value _), ← toHostEntries_eq distinct takes]
    exact (if_neg (toHostName_ne_fromHostName _)).trans (if_pos rfl)
  rw [enumWrite_eq, table]
  exact lookup_map (fun _ => rfl) _ _

theorem enumWrite_known {n : Int} (known : n ∈ namedNumbers e ∨ n = e.unrecognizedNumber) :
    enumWrite e (.member n) = some (.number n) := by
  rw [enumWrite_member distinct takes, if_pos (by simpa using known)]

omit takes in
/-- Reading fails for every number if the class is called as the parameter of its reader. Else the two
    functions are inverse to one another, if the class takes the names of all values for members. -/
theorem roundTrips_iff : RoundTrips e ↔ e.ref.className ≠ "number" ∧
    ∀ value ∈ e.values, Code.isMemberName e.ref.className (Name.escape value.name) = true := by
  constructor
  · intro trips
    have taken : ∀ value ∈ e.values, Code.isMemberName e.ref.className (Name.escape value.name) = true :=
      fun value isValue => isMemberName_of_memberNumber e (trips.values value isValue)
    -- A class called as the parameter leaves no member that is read back, and there is one at least.
    refine ⟨fun hidden => ?_, taken⟩
    have takes := takesNames_of_values distinct taken
    obtain ⟨member, isMember, _⟩ := unrecognized_mem e
    have back := trips.members member (by rwa [takes.ownMembers_eq])
    rw [enumWrite_known distinct takes (member_number distinct isMember)] at back
    rw [Option.bind_some, enumRead_hidden hidden] at back
    cases back
  · rintro ⟨visible, taken⟩
    have takes := takesNames_of_values distinct taken
    constructor
    · exact fun value isValue => memberNumber_value distinct isValue (taken value isValue)
    · intro n isNumber
      rw [enumRead_number distinct takes visible, Option.bind_some]
      have known := ((mem_numbers_iff distinct).mp isNumber).imp_right (·.2)
      by_cases named : n ∈ namedNumbers e
      · rw [if_pos named, enumWrite_known distinct takes (.inl named)]
      · rw [if_neg named, ← known.resolve_left named, enumWrite_known distinct takes known]
    · intro n undeclared
      have unnamed : n ∉ namedNumbers e := fun named =>
        undeclared ((mem_numbers_iff distinct).mpr (.inl named))
      refine ⟨_, memberNumber_unrecognized e takes.distinct, ?_⟩
      rw [enumRead_number distinct takes visible, if_neg unnamed]
    · intro member isMember
      have known := member_number distinct (EnumClass.mem_ownMembers isMember).1
      rw [enumWrite_known distinct takes known, Option.bind_some, enumRead_number distinct takes visible]
      by_cases named : member.number ∈ namedNumbers e
      · rw [if_pos named]
      · rw [if_neg named, known.resolve_left named]
    · exact unrecognizedNumber_notMem

end Functions

def mood : EnumType where
  name := "Mood"
  fullName := "Mood"
  ref := { fullName := "Mood", file := "mood.proto", package := "", path := ["Mood"] }
  values := [⟨"CALM", 1⟩, ⟨"None", -1⟩, ⟨"QUIET", 1⟩, ⟨"UNRECOGNIZED", -1⟩]

theorem mood_roundTrips : (mood.values.map (Name.escape ·.name)).Nodup ∧ RoundTrips mood :=
  ⟨by decide, (roundTrips_iff (by decide)).mpr ⟨by decide, by decide +kernel⟩⟩

def numberEnum : EnumType where
  name := "number"
  fullName := "number"
  ref := { fullName := "number", file := "number.proto", package := "", path := ["number"] }
  values := [⟨"ZERO", 0⟩]

theorem numberEnum_not_roundTrips :
    (numberEnum.values.map (Name.escape ·.name)).Nodup ∧ ¬ RoundTrips numberEnum := by
  refine ⟨by decide, fun trips => ?_⟩
  have back := trips.declared 0 (by decide)
  rw [enumRead_hidden (by decide)] at back
  cases back

end ProtoBindings.Value
