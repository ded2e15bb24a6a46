import ProtoBindings.Number.Integer
import ProtoBindings.Proofs.Value.EnumLookup

namespace ProtoBindings.Value

open Schema (EnumType EnumValue)

def FitsEnum (n : Int) : Prop := Number.fitSigned 32 n = .ok n

def leastNumber : Int := -2147483648

theorem fitsEnum_iff {n : Int} : FitsEnum n ↔ leastNumber ≤ n ∧ n < 2147483648 := by
  have bound : (Nat.pow 2 (32 - 1) : Int) = 2147483648 := by decide
  rw [FitsEnum, Number.fitSigned, bound, leastNumber]
  by_cases inside : (-2147483648 : Int) ≤ n ∧ n < 2147483648
  · simp [inside]
  · simp [inside]

instance : DecidablePred FitsEnum := fun _ => decidable_of_iff _ fitsEnum_iff.symm

/-- Only where `-1` is declared is the number taken from below the smallest. -/
theorem freeNumber_fits_iff {numbers : List Int} (fit : ∀ n ∈ numbers, FitsEnum n) :
    FitsEnum (Schema.freeNumber numbers) ↔ ¬ (-1 ∈ numbers ∧ leastNumber ∈ numbers) := by
  rw [Schema.freeNumber]
  split
  case isFalse free =>
    have undeclared : -1 ∉ numbers := by simpa using free
    have fits : FitsEnum (-1) := by decide
    simp [undeclared, fits]
  case isTrue taken =>
    have declared : -1 ∈ numbers := List.contains_iff_mem.mp taken
    have nonempty : numbers ≠ [] := List.ne_nil_of_mem declared
    rw [List.min?_eq_some_min nonempty, Option.getD_some]
    have smallest := fitsEnum_iff.mp (fit _ (List.min_mem nonempty))
    constructor
    · rintro fits ⟨_, least⟩
      have below := List.min_le_of_mem least
      have above := (fitsEnum_iff.mp fits).1
      omega
    · intro room
      have other : numbers.min nonempty ≠ leastNumber := fun same =>
        room ⟨declared, same ▸ List.min_mem nonempty⟩
      rw [fitsEnum_iff]
      omega

/-- The enum leaves no host number below its smallest, and takes the number that would do. -/
def LeavesNoNumber (e : EnumType) : Prop :=
  e.declaresUnrecognized = false ∧ -1 ∈ e.numbers ∧ leastNumber ∈ e.numbers

instance (e : EnumType) : Decidable (LeavesNoNumber e) :=
  inferInstanceAs (Decidable (_ ∧ _ ∧ _))

theorem sentinel_fits_iff {e : EnumType} (fit : ∀ n ∈ e.numbers, FitsEnum n) :
    FitsEnum e.unrecognizedNumber ↔ ¬ LeavesNoNumber e := by
  cases declared : e.declaresUnrecognized with
  | true =>
    have fits := fit _ (unrecognizedNumber_mem declared)
    simp [LeavesNoNumber, declared, fits]
  | false =>
    rw [unrecognizedNumber_undeclared declared, freeNumber_fits_iff fit]
    simp [LeavesNoNumber, declared]

def toHostNumbers (e : EnumType) : Option (List Int) :=
  (enumTables e).toHost.mapM fun entry => (tableOperand e entry.host).map (·.key)

section Entries

variable {e : EnumType}

theorem exists_mapM_eq_some {α β : Type} {f : α → Option β} {P : β → Prop} {items : List α}
    (each : ∀ item ∈ items, ∃ result, f item = some result ∧ P result) :
    ∃ results, items.mapM f = some results ∧ ∀ result ∈ results, P result := by
  induction items with
  | nil => exact ⟨[], rfl, by simp⟩
  | cons first rest ih =>
    obtain ⟨result, here, holds⟩ := each first List.mem_cons_self
    obtain ⟨results, there, hold⟩ := ih fun item isItem => each item (List.mem_cons_of_mem _ isItem)
    refine ⟨result :: results, ?_, List.forall_mem_cons.mpr ⟨holds, hold⟩⟩
    rw [List.mapM_cons, here, there]
    rfl

theorem exists_hostNumber {value : EnumValue} (isValue : value ∈ e.values) :
    ∃ n ∈ e.numbers, hostNumber e value.name = some n := by
  have isFound : (e.values.find? (·.name == value.name)).isSome = true :=
    List.find?_isSome.mpr ⟨value, isValue, beq_self_eq_true _⟩
  obtain ⟨first, found⟩ := Option.isSome_iff_exists.mp isFound
  refine ⟨first.number, List.mem_map_of_mem (List.mem_of_find?_eq_some found), ?_⟩
  rw [hostNumber, found, Option.map_some]

theorem exists_memberNumber (takes : (enumClass e).TakesNames) {value : EnumValue}
    (isValue : value ∈ e.values) : ∃ n, memberNumber e (Name.escape value.name) = some n := by
  have isMember : ⟨Name.escape value.name, value.number⟩ ∈ (enumClass e).members :=
    List.mem_append_left _ (List.mem_map_of_mem isValue)
  have isFound : ((enumClass e).members.find? (·.name == Name.escape value.name)).isSome = true :=
    List.find?_isSome.mpr ⟨_, isMember, beq_self_eq_true _⟩
  obtain ⟨first, found⟩ := Option.isSome_iff_exists.mp isFound
  refine ⟨first.number, ?_⟩
  rw [memberNumber_eq_find e takes.distinct _ (value_taken takes isValue), found, Option.map_some]

theorem toHost_eq : (enumTables e).toHost =
    (enumTables e).fromHost ++ [⟨Schema.unrecognized, .number e.unrecognizedNumber⟩] := rfl

theorem exists_toHostNumbers (e : EnumType) :
    ∃ numbers, (∀ n ∈ numbers, n ∈ e.numbers) ∧
      toHostNumbers e = some (numbers ++ [e.unrecognizedNumber]) := by
  have each : ∀ entry ∈ (enumTables e).fromHost,
      ∃ n, (tableOperand e entry.host).map (·.key) = some n ∧ n ∈ e.numbers := by
    intro entry isEntry
    obtain ⟨value, isNamed, rfl⟩ := List.mem_map.mp isEntry
    obtain ⟨n, isNumber, host⟩ := exists_hostNumber (List.mem_filter.mp isNamed).1
    refine ⟨n, ?_, isNumber⟩
    rw [tableOperand_host, host]
    rfl
  obtain ⟨numbers, named, declared⟩ := exists_mapM_eq_some each
  refine ⟨numbers, declared, ?_⟩
  rw [toHostNumbers, toHost_eq, List.mapM_append, named]
  rfl

theorem exists_entries {table : List TableEntry} {numbers : List Int}
    (members : ∀ entry ∈ table, ∃ k, memberNumber e entry.member = some k)
    (evaluated : (table.mapM fun entry => (tableOperand e entry.host).map (·.key)) = some numbers) :
    ∃ entries, (table.map fun entry => ((enumTables e).memberExpr entry, entry.host)).mapM
      (tableEntry e) = some entries ∧ entries.map (·.2.key) = numbers := by
  induction table generalizing numbers with
  | nil => exact ⟨[], rfl, Option.some_inj.mp evaluated⟩
  | cons first rest ih =>
    obtain ⟨k, member⟩ := members first List.mem_cons_self
    simp only [List.mapM_cons, Option.bind_eq_bind, Option.bind_eq_some_iff, Option.map_eq_some_iff,
      Option.pure_def, Option.some_inj] at evaluated
    obtain ⟨_, ⟨d, host, rfl⟩, others, there, rfl⟩ := evaluated
    obtain ⟨entries, areEntries, rfl⟩ :=
      ih (fun entry isEntry => members entry (List.mem_cons_of_mem _ isEntry)) there
    have here : tableEntry e ((enumTables e).memberExpr first, first.host) = some (.member k, d) :=
      tableEntry_eq_some (by rw [tableOperand_member, member, Option.map_some]) host
    refine ⟨(.member k, d) :: entries, ?_, rfl⟩
    rw [List.map_cons, List.mapM_cons, here, areEntries]
    rfl

theorem toHostEntries_of_takes (takes : (enumClass e).TakesNames) {numbers : List Int}
    (evaluated : toHostNumbers e = some numbers) :
    ∃ entries, toHostEntries e = some entries ∧ entries.map (·.2.key) = numbers := by
  refine exists_entries (fun entry isEntry => ?_) evaluated
  rw [toHost_eq, List.mem_append, List.mem_singleton] at isEntry
  rcases isEntry with isNamed | rfl
  · obtain ⟨value, isFiltered, rfl⟩ := List.mem_map.mp isNamed
    exact exists_memberNumber takes (List.mem_filter.mp isFiltered).1
  · exact ⟨_, memberNumber_unrecognized e takes.distinct⟩

end Entries

/-- If the declared numbers are numbers of the host, then so are all that the table holds, unless the
    enum leaves none for the member that stands for the rest. The table can be evaluated if the class
    takes all names for members. -/
theorem toHostEntries_fit_iff {e : EnumType} (fit : ∀ n ∈ e.numbers, FitsEnum n) :
    (FitsEnum e.unrecognizedNumber ↔ ¬ LeavesNoNumber e) ∧
    ∃ numbers, toHostNumbers e = some numbers ∧
      ((∀ n ∈ numbers, FitsEnum n) ↔ ¬ LeavesNoNumber e) ∧
      ((enumClass e).TakesNames →
        ∃ entries, toHostEntries e = some entries ∧ entries.map (·.2.key) = numbers) := by
  refine ⟨sentinel_fits_iff fit, ?_⟩
  obtain ⟨numbers, declared, evaluated⟩ := exists_toHostNumbers e
  refine ⟨_, evaluated, ?_, fun takes => toHostEntries_of_takes takes evaluated⟩
  rw [← sentinel_fits_iff fit, List.forall_mem_append, List.forall_mem_singleton]
  exact and_iff_right fun n isNumber => fit n (declared n isNumber)

def scale : EnumType where
  name := "Scale"
  fullName := "Scale"
  ref := { fullName := "Scale", file := "scale.proto", package := "", path := ["Scale"] }
  values := [⟨"NONE", 0⟩, ⟨"LOWEST", -2147483648⟩, ⟨"HIGHEST", 2147483647⟩]

theorem scale_fits : (∀ n ∈ scale.numbers, FitsEnum n) ∧ FitsEnum scale.unrecognizedNumber ∧
    ∃ entries, toHostEntries scale = some entries ∧ ∀ entry ∈ entries, FitsEnum entry.2.key := by
  have fit : ∀ n ∈ scale.numbers, FitsEnum n := by decide
  obtain ⟨sentinel, numbers, _, fits, table⟩ := toHostEntries_fit_iff fit
  obtain ⟨entries, isTable, rfl⟩ := table (by decide +kernel)
  refine ⟨fit, sentinel.mpr (by decide), entries, isTable, fun entry isEntry => ?_⟩
  exact fits.mpr (by decide) _ (List.mem_map_of_mem isEntry)

def level : EnumType where
  name := "Level"
  fullName := "Level"
  ref := { fullName := "Level", file := "level.proto", package := "", path := ["Level"] }
  values := [⟨"OFF", 0⟩, ⟨"BELOW", -1⟩, ⟨"LOWEST", -2147483648⟩]

theorem level_unrecognizedNumber_unfit :
    (∀ n ∈ level.numbers, FitsEnum n) ∧ level.unrecognizedNumber = -2147483649 ∧
    ¬ FitsEnum level.unrecognizedNumber := by
  decide

end ProtoBindings.Value
