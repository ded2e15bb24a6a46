import Mathlib.Data.List.Perm.Subperm
import Mathlib.Logic.Relation
import ProtoBindings.Proofs.Resolver.Failure

namespace ProtoBindings.Resolver

open Descriptor (Node)
open Relation (ReflTransGen TransGen)
open Schema (Field FileUnit)

def RunsOut (table : SymbolTable) (depth : Nat) (field : Descriptor.Field) (context : String)
    (oneof : Option String) : Prop :=
  ∃ steps, buildFieldTo table depth field context oneof = .error (.deepMapEntry steps)

def Buildable (table : SymbolTable) (field : Descriptor.Field) : Prop :=
  ∃ depth context oneof f, buildFieldTo table depth field context oneof = .ok f

/-- The fields that have to be built for a field. The value of an entry is not looked at if the key of it
    cannot be built. -/
inductive LeadsTo (table : SymbolTable) (field : Descriptor.Field) : Descriptor.Field → Prop
  | key (entry : Descriptor.Message) (keyField : Descriptor.Field) :
      entryOf? table field = some entry → fieldNumbered? entry 1 = some keyField →
      LeadsTo table field keyField
  | value (entry : Descriptor.Message) (keyField valueField : Descriptor.Field) :
      entryOf? table field = some entry → fieldNumbered? entry 1 = some keyField →
      Buildable table keyField → fieldNumbered? entry 2 = some valueField →
      LeadsTo table field valueField

inductive Way (table : SymbolTable) : Descriptor.Field → List String → Prop
  | stop (field) : Way table field []
  | step {field next names} : LeadsTo table field next → Way table next names →
      Way table field (typeNameOf field :: names)

/-- A field that leads to one from which the way leads back to it. -/
def Endless (table : SymbolTable) (field : Descriptor.Field) : Prop :=
  ∃ turn, ReflTransGen (LeadsTo table) field turn ∧ TransGen (LeadsTo table) turn turn

/-- That some depth is enough for a field, and so is any beyond it. -/
def Ends (table : SymbolTable) (field : Descriptor.Field) : Prop :=
  ∃ enough, ∀ depth, enough ≤ depth → ∀ context oneof, ¬RunsOut table depth field context oneof

section Build

variable {table : SymbolTable} {field : Descriptor.Field} {context : String} {oneof : Option String}
  {depth : Nat}

theorem fieldNumbered_of_found {message : Descriptor.Message} {number : Nat}
    (found : fieldNumbered? message number = some field) :
    fieldNumbered message number = .ok field := by
  rw [fieldNumbered, found]

theorem resolve_of_found {s : Symbol} (found : table.find? (typeNameOf field) = some s) :
    table.resolve field.typeName context = .ok s := by
  rw [typeNameOf] at found
  rw [SymbolTable.resolve, found]

theorem buildFieldTo_entry {s : Symbol} {entry : Descriptor.Message} (names : NamesType field)
    (found : table.find? (typeNameOf field) = some s) (isEntry : s.entry? field.label = some entry) :
    buildFieldTo table (depth + 1) field context oneof = do
      let keyField ← fieldNumbered entry 1
      let key ← (buildFieldTo table depth keyField (context ++ ".key") none).mapError (.inPart .key)
      let valueField ← fieldNumbered entry 2
      let value ← (buildFieldTo table depth valueField (context ++ ".value") none).mapError
        (.inPart .value)
      return .map {
        name := field.name
        number := field.number
        element := .message s.ref
        deprecated := field.deprecated } key value := by
  rcases namesType_iff.mp names with kind | kind | kind
  all_goals simp only [buildFieldTo, kind, resolve_of_found found, Result.ok_bind, isEntry]

theorem buildFieldTo_named {s : Symbol} (names : NamesType field)
    (found : table.find? (typeNameOf field) = some s) (flat : s.entry? field.label = none) :
    buildFieldTo table (depth + 1) field context oneof = .ok (ordinaryField field s.element oneof) := by
  rcases namesType_iff.mp names with kind | kind | kind
  all_goals
    simp only [buildFieldTo, kind, resolve_of_found found, Result.ok_bind, flat]
    rfl

theorem buildFieldTo_undefined (names : NamesType field)
    (absent : table.find? (typeNameOf field) = none) :
    buildFieldTo table (depth + 1) field context oneof =
      .error (.undefinedType field.typeName context) := by
  rw [typeNameOf] at absent
  rcases namesType_iff.mp names with kind | kind | kind
  all_goals
    simp only [buildFieldTo, kind, SymbolTable.resolve, absent]
    rfl

/-- The depth does not matter to a field that ranges over no entry. -/
theorem buildFieldTo_flat (flat : entryOf? table field = none) (other : Nat) :
    buildFieldTo table (depth + 1) field context oneof =
      buildFieldTo table (other + 1) field context oneof := by
  cases kind : field.type with
  | scalar type => simp only [buildFieldTo, kind]
  | group | message | enum =>
    have names : NamesType field := by simp [NamesType, kind]
    rw [entryOf?, if_pos names] at flat
    cases found : table.find? (typeNameOf field) with
    | none => rw [buildFieldTo_undefined names found, buildFieldTo_undefined names found]
    | some s =>
      rw [found, Option.bind_some] at flat
      rw [buildFieldTo_named names found flat, buildFieldTo_named names found flat]

theorem runsOut_zero : RunsOut table 0 field context oneof := ⟨[], rfl⟩

theorem Error.eq_deep_of_inPart {e : Error} {part : EntryPart} {steps : List EntryPart}
    (deep : e.inPart part = .deepMapEntry steps) : ∃ inner, e = .deepMapEntry inner := by
  cases e with
  | deepMapEntry inner => exact ⟨inner, rfl⟩
  | missingDependency | unknownFile | undefinedType | missingEntryField | oneofOutOfRange | undeclared =>
    cases deep

/-- The depth is used up one level further down, at the key or, after that, at the value. -/
theorem runsOut_succ_iff : RunsOut table (depth + 1) field context oneof ↔
    ∃ entry keyField, entryOf? table field = some entry ∧ fieldNumbered? entry 1 = some keyField ∧
      (RunsOut table depth keyField (context ++ ".key") none ∨
        (∃ key, buildFieldTo table depth keyField (context ++ ".key") none = .ok key) ∧
          ∃ valueField, fieldNumbered? entry 2 = some valueField ∧
            RunsOut table depth valueField (context ++ ".value") none) := by
  constructor
  · rintro ⟨steps, failed⟩
    generalize isDeep : Error.deepMapEntry steps = e at failed
    cases buildFieldTo_eq_error failed with
    | undefined | absent => cases isDeep
    | key entry keyField ranges isKey keyFailed =>
      obtain ⟨inner, rfl⟩ := Error.eq_deep_of_inPart isDeep.symm
      exact ⟨entry, keyField, ranges, isKey, .inl ⟨inner, keyFailed⟩⟩
    | value entry keyField valueField key ranges isKey keyBuilt isValue valueFailed =>
      obtain ⟨inner, rfl⟩ := Error.eq_deep_of_inPart isDeep.symm
      have out : RunsOut table depth valueField (context ++ ".value") none := ⟨inner, valueFailed⟩
      exact ⟨entry, keyField, ranges, isKey, .inr ⟨⟨key, keyBuilt⟩, valueField, isValue, out⟩⟩
  · rintro ⟨entry, keyField, ranges, isKey, out⟩
    obtain ⟨names, s, found, isEntry⟩ := entryOf?_eq_some.mp ranges
    rw [RunsOut, buildFieldTo_entry names found isEntry, fieldNumbered_of_found isKey]
    rcases out with ⟨steps, failed⟩ | ⟨⟨key, keyBuilt⟩, valueField, isValue, steps, failed⟩
    · refine ⟨steps ++ [.key], ?_⟩
      simp [bind, Except.bind, failed, Except.mapError, Error.inPart]
    · refine ⟨steps ++ [.value], ?_⟩
      simp [bind, Except.bind, keyBuilt, fieldNumbered_of_found isValue, failed, Except.mapError,
        Error.inPart]

theorem Buildable.at_depth (buildable : Buildable table field) (depth : Nat) (context : String)
    (oneof : Option String) : RunsOut table depth field context oneof ∨
      ∃ f, buildFieldTo table depth field context oneof = .ok f := by
  induction depth generalizing field context oneof with
  | zero => exact .inl runsOut_zero
  | succ depth ih =>
    obtain ⟨_, _, _, _, built⟩ := buildable
    cases buildFieldTo_eq_ok built with
    | scalar type kind =>
      exact .inr ⟨ordinaryField field (.scalar type) oneof, by simp [buildFieldTo, kind]⟩
    | named s names found noEntry => exact .inr ⟨_, buildFieldTo_named names found noEntry⟩
    | map s entry keyField valueField place key value names found isEntry isKey isValue keyBuilt
        valueBuilt =>
      have ranges := entryOf?_eq_some.mpr ⟨names, s, found, isEntry⟩
      have isKey := fieldNumbered?_of_ok isKey
      rcases ih ⟨_, _, _, _, keyBuilt⟩ (context ++ ".key") none with out | ⟨key, keyBuilt⟩
      · exact .inl (runsOut_succ_iff.mpr ⟨entry, keyField, ranges, isKey, .inl out⟩)
      rcases ih ⟨_, _, _, _, valueBuilt⟩ (context ++ ".value") none with out | ⟨value, valueBuilt⟩
      · exact .inl (runsOut_succ_iff.mpr ⟨entry, keyField, ranges, isKey,
          .inr ⟨⟨key, keyBuilt⟩, valueField, fieldNumbered?_of_ok isValue, out⟩⟩)
      · rw [buildFieldTo_entry names found isEntry, fieldNumbered_of_found isKey, isValue]
        simp [bind, Except.bind, keyBuilt, valueBuilt, Except.mapError, pure, Except.pure]

theorem answer_stays (inTime : ¬RunsOut table depth field context oneof) :
    buildFieldTo table (depth + 1) field context oneof =
      buildFieldTo table depth field context oneof := by
  induction depth generalizing field context oneof with
  | zero => exact absurd runsOut_zero inTime
  | succ depth ih =>
    cases ranges : entryOf? table field with
    | none => exact buildFieldTo_flat ranges depth
    | some entry =>
      obtain ⟨names, s, found, isEntry⟩ := entryOf?_eq_some.mp ranges
      rw [buildFieldTo_entry names found isEntry, buildFieldTo_entry names found isEntry]
      refine Result.bind_congr fun keyField isKey => ?_
      have isKey := fieldNumbered?_of_ok isKey
      rw [ih fun out => inTime (runsOut_succ_iff.mpr ⟨entry, keyField, ranges, isKey, .inl out⟩)]
      refine Result.bind_congr fun key keyBuilt => Result.bind_congr fun valueField isValue => ?_
      have keyBuilt := Result.mapError_eq_ok.mp keyBuilt
      have valueInTime : ¬RunsOut table depth valueField (context ++ ".value") none := fun out =>
        inTime (runsOut_succ_iff.mpr ⟨entry, keyField, ranges, isKey,
          .inr ⟨⟨key, keyBuilt⟩, valueField, fieldNumbered?_of_ok isValue, out⟩⟩)
      rw [ih valueInTime]

theorem answer_stays_beyond (inTime : ¬RunsOut table depth field context oneof) (more : Nat) :
    buildFieldTo table (depth + more) field context oneof =
      buildFieldTo table depth field context oneof := by
  induction more with
  | zero => rfl
  | succ more ih =>
    have still : ¬RunsOut table (depth + more) field context oneof := by rwa [RunsOut, ih]
    rw [← Nat.add_assoc, answer_stays still, ih]

end Build

section Endless

variable {table : SymbolTable} {field : Descriptor.Field}

theorem Endless.next (endless : Endless table field) :
    ∃ next, LeadsTo table field next ∧ Endless table next := by
  obtain ⟨turn, way, round⟩ := endless
  rcases way.cases_head with rfl | ⟨next, leads, way⟩
  · obtain ⟨next, leads, back⟩ := TransGen.head'_iff.mp round
    exact ⟨next, leads, field, back, round⟩
  · exact ⟨next, leads, turn, way, round⟩

theorem Endless.of_leadsTo {next : Descriptor.Field} (leads : LeadsTo table field next)
    (endless : Endless table next) : Endless table field := by
  obtain ⟨turn, way, round⟩ := endless
  exact ⟨turn, .head leads way, round⟩

theorem Endless.runsOut (endless : Endless table field) (depth : Nat) (context : String)
    (oneof : Option String) : RunsOut table depth field context oneof := by
  induction depth generalizing field context oneof with
  | zero => exact runsOut_zero
  | succ depth ih =>
    obtain ⟨next, leads, endless⟩ := endless.next
    rw [runsOut_succ_iff]
    cases leads with
    | key entry _ ranges isKey => exact ⟨entry, next, ranges, isKey, .inl (ih endless _ _)⟩
    | value entry keyField _ ranges isKey buildable isValue =>
      -- The key may need more depth than there is, and then the value is not reached.
      refine ⟨entry, keyField, ranges, isKey, ?_⟩
      rcases buildable.at_depth depth (context ++ ".key") none with out | keyBuilt
      · exact .inl out
      · exact .inr ⟨keyBuilt, next, isValue, ih endless _ _⟩

theorem RunsOut.way {depth : Nat} {context : String} {oneof : Option String}
    (out : RunsOut table depth field context oneof) :
    ∃ names, Way table field names ∧ names.length = depth := by
  induction depth generalizing field context oneof with
  | zero => exact ⟨[], .stop field, rfl⟩
  | succ depth ih =>
    obtain ⟨entry, keyField, ranges, isKey, out⟩ := runsOut_succ_iff.mp out
    rcases out with out | ⟨⟨key, keyBuilt⟩, valueField, isValue, out⟩
    · obtain ⟨names, way, length⟩ := ih out
      exact ⟨_, .step (.key entry keyField ranges isKey) way, congrArg (· + 1) length⟩
    · obtain ⟨names, way, length⟩ := ih out
      have buildable : Buildable table keyField := ⟨depth, _, none, key, keyBuilt⟩
      exact ⟨_, .step (.value entry keyField valueField ranges isKey buildable isValue) way,
        congrArg (· + 1) length⟩

theorem LeadsTo.entry {next : Descriptor.Field} (leads : LeadsTo table field next) :
    ∃ entry, entryOf? table field = some entry := by
  cases leads with
  | key entry _ ranges => exact ⟨entry, ranges⟩
  | value entry _ _ ranges => exact ⟨entry, ranges⟩

/-- What a field leads to depends on nothing but the name of its entry. -/
theorem LeadsTo.of_name {other next after : Descriptor.Field} (leads : LeadsTo table field next)
    (continues : LeadsTo table other after) (same : typeNameOf other = typeNameOf field) :
    LeadsTo table other next := by
  obtain ⟨entry, ranges⟩ := leads.entry
  obtain ⟨otherEntry, otherRanges⟩ := continues.entry
  have equal : entryOf? table other = entryOf? table field := by
    have labels := (label_of_entryOf otherRanges).trans (label_of_entryOf ranges).symm
    have names := (entryOf?_eq_some.mp ranges).1
    have otherNames := (entryOf?_eq_some.mp otherRanges).1
    rw [entryOf?, entryOf?, if_pos names, if_pos otherNames, same, labels]
  cases leads with
  | key entry _ ranges isKey => exact .key entry next (equal.trans ranges) isKey
  | value entry keyField _ ranges isKey buildable isValue =>
    exact .value entry keyField next (equal.trans ranges) isKey buildable isValue

theorem Way.met {names : List String} (way : Way table field names) {name : String}
    (isMet : name ∈ names) : ∃ f after, ReflTransGen (LeadsTo table) field f ∧
      LeadsTo table f after ∧ typeNameOf f = name := by
  induction way with
  | stop => cases isMet
  | @step field next names leads _ ih =>
    rcases List.mem_cons.mp isMet with rfl | isMet
    · exact ⟨field, next, .refl, leads, rfl⟩
    · obtain ⟨f, after, reached, continues, named⟩ := ih isMet
      exact ⟨f, after, .head leads reached, continues, named⟩

/-- A way that meets a name again can go on as it did the first time. -/
theorem Way.nodup {names : List String} (way : Way table field names)
    (ends : ¬Endless table field) : names.Nodup := by
  induction way with
  | stop => exact List.nodup_nil
  | @step field next names leads rest ih =>
    refine List.nodup_cons.mpr ⟨fun again => ends ?_, ih fun endless => ends (.of_leadsTo leads endless)⟩
    obtain ⟨f, after, reached, continues, same⟩ := rest.met again
    exact ⟨next, .single leads, .tail' reached (leads.of_name continues same)⟩

theorem Way.length_le {names : List String} (way : Way table field names)
    (ends : ¬Endless table field) : names.length ≤ table.size := by
  have inTable : names ⊆ table.newestFirst.map (·.ref.fullName) := by
    intro name isMet
    obtain ⟨f, after, _, continues, rfl⟩ := way.met isMet
    obtain ⟨entry, ranges⟩ := continues.entry
    obtain ⟨_, s, found, _⟩ := entryOf?_eq_some.mp ranges
    obtain ⟨isSymbol, named⟩ := SymbolTable.mem_of_find found
    exact List.mem_map.mpr ⟨s, isSymbol, named⟩
  have bounded := ((way.nodup ends).subperm inTable).length_le
  rwa [List.length_map] at bounded

theorem not_runsOut (ends : ¬Endless table field) {depth : Nat} (enough : table.size < depth)
    (context : String) (oneof : Option String) : ¬RunsOut table depth field context oneof := by
  intro out
  obtain ⟨names, way, length⟩ := out.way
  have bounded := way.length_le ends
  omega

theorem ends_iff : Ends table field ↔ ¬Endless table field := by
  constructor
  · rintro ⟨enough, inTime⟩ endless
    exact inTime enough (Nat.le_refl _) "" none (endless.runsOut enough "" none)
  · exact fun ends => ⟨table.size + 1, fun depth enough => not_runsOut ends (by omega)⟩

end Endless

/-- What the ways through entries mean for the build of a field, and for a file. -/
structure EndsUnlessRound (room : Room) (resolver : Resolver) (file : Descriptor.File) : Prop where
  ends_iff : ∀ field, Ends (tableFor resolver file) field ↔ ¬Endless (tableFor resolver file) field
  /-- One level more than there are symbols is enough, and further ones change nothing. -/
  settled : ∀ field, ¬Endless (tableFor resolver file) field → ∀ context oneof,
    ¬RunsOut (tableFor resolver file) ((tableFor resolver file).size + 1) field context oneof ∧
      ∀ more, buildFieldTo (tableFor resolver file) ((tableFor resolver file).size + 1 + more) field
        context oneof =
          buildFieldTo (tableFor resolver file) ((tableFor resolver file).size + 1) field context oneof
  endless : ∀ field, Endless (tableFor resolver file) field → ∀ depth context oneof,
    RunsOut (tableFor resolver file) depth field context oneof
  returned : ∀ unit, (resolver.addIn room file).2 = .ok unit → ∀ field ∈ file.visibleFields,
    Ends (tableFor resolver file) field
  /-- The room suffices if there is more at each message than the table is long. -/
  inTime : (∀ field ∈ file.visibleFields, Ends (tableFor resolver file) field) →
    (∀ n ∈ file.nodes, n.isHidden = false →
      (tableFor resolver file).size < room.levels n.scope.length) →
    ∀ steps, (resolver.addIn room file).2 ≠ .error (.deepMapEntry steps)

section Add

variable {room : Room} {resolver : Resolver} {file : Descriptor.File}

theorem buildFile_deep {table : SymbolTable} (symbols : fileSymbols file ⊆ table.newestFirst)
    {steps : List EntryPart} (failed : buildFile room table file = .error (.deepMapEntry steps)) :
    ∃ n ∈ file.nodes, n.isHidden = false ∧ ∃ field ∈ n.message.fields, ∃ context oneof,
      RunsOut table (room.levels n.scope.length) field context oneof := by
  rcases buildFile_eq_error symbols failed with
    ⟨n, isNode, shown, field, isField, failed⟩ | ⟨_, _, method, _, failed⟩
  · rcases placeField_eq_error failed with ⟨index, _, failed⟩ | ⟨oneof, failed⟩
    · simp only [declaredOneof] at failed
      split at failed <;> cases failed
    · exact ⟨n, isNode, shown, field, isField, _, oneof, steps, failed⟩
  · rcases Result.bind_eq_error.mp failed with failed | ⟨_, _, failed⟩
    · cases (resolve_eq_error failed).2
    rcases Result.bind_eq_error.mp failed with failed | ⟨_, _, done⟩
    · cases (resolve_eq_error failed).2
    · cases done

theorem ends_of_returned {unit : FileUnit} (returned : (resolver.addIn room file).2 = .ok unit)
    {field : Descriptor.Field} (visible : field ∈ file.visibleFields) :
    Ends (tableFor resolver file) field := by
  have attempt := addIn_attempt room resolver file
  generalize resolver.addIn room file = outcome at attempt returned
  cases attempt with
  | missing | failed => cases returned
  | built unit _ built =>
    obtain ⟨depth, context, oneof, f, fieldBuilt⟩ := (buildFile_eq_ok built).visibleField visible
    refine ends_iff.mpr fun endless => ?_
    obtain ⟨steps, failed⟩ := endless.runsOut depth context oneof
    have done := fieldBuilt.symm.trans failed
    cases done

theorem addIn_not_deep
    (ends : ∀ field ∈ file.visibleFields, Ends (tableFor resolver file) field)
    (short : ∀ n ∈ file.nodes, n.isHidden = false →
      (tableFor resolver file).size < room.levels n.scope.length) (steps : List EntryPart) :
    (resolver.addIn room file).2 ≠ .error (.deepMapEntry steps) := by
  intro failed
  have attempt := addIn_attempt room resolver file
  generalize resolver.addIn room file = outcome at attempt failed
  cases attempt with
  | missing | built => cases failed
  | failed error _ buildFailed =>
    cases failed
    obtain ⟨n, isNode, shown, field, isField, context, oneof, out⟩ :=
      buildFile_deep (symbols_subset_tableFor resolver file) buildFailed
    have visible := Descriptor.File.mem_visibleFields.mpr ⟨n, isNode, shown, isField⟩
    exact not_runsOut (ends_iff.mp (ends field visible)) (short n isNode shown) context oneof out

/-- The recursion through entries has an end unless it goes round a cycle, whatever the state of the
    resolver, whatever the file is like and however much room there is. -/
theorem add_endsUnlessRound (room : Room) (resolver : Resolver) (file : Descriptor.File) :
    EndsUnlessRound room resolver file where
  ends_iff := fun _ => ends_iff
  settled := by
    intro field ends context oneof
    have inTime := not_runsOut ends (Nat.lt_succ_self _) context oneof
    exact ⟨inTime, answer_stays_beyond inTime⟩
  endless := fun _ endless => endless.runsOut
  returned := fun _ returned _ visible => ends_of_returned returned visible
  inTime := addIn_not_deep

end Add

def links (name : String) (number : Int) : Descriptor.Field where
  name := name
  number := number
  type := .message
  label := .repeated
  typeName := ".Chain.LinksEntry"

def linksEntry : Descriptor.Message where
  name := "LinksEntry"
  fields := [{ name := "key", number := 1, type := .scalar .string }, links "value" 2]
  isMapEntry := true

def chain : Descriptor.File where
  name := "chain.proto"
  messages := [{ name := "Chain", fields := [links "links" 1], messages := [linksEntry] }]

theorem entryOf_links (name : String) (number : Int) :
    entryOf? (tableFor {} chain) (links name number) = some linksEntry := by
  have named : Text.dropLeadingDots ".Chain.LinksEntry" = "Chain.LinksEntry" := by decide +kernel
  refine entryOf?_eq_some.mpr ⟨namesType_iff.mpr (.inr (.inl rfl)),
    ⟨refAt chain ["Chain", "LinksEntry"], .message linksEntry⟩, ?_, rfl⟩
  rw [typeNameOf, links, named]
  rfl

theorem links_leadsTo (name : String) (number : Int) :
    LeadsTo (tableFor {} chain) (links name number) (links "value" 2) :=
  .value linksEntry _ _ (entryOf_links name number) rfl ⟨1, "", none, _, rfl⟩ rfl

theorem links_endless : Endless (tableFor {} chain) (links "links" 1) :=
  ⟨links "value" 2, .single (links_leadsTo "links" 1), .single (links_leadsTo "value" 2)⟩

/-- However much room there is, the add stops only where it is used up. -/
theorem chain_deep (room : Room) :
    ∃ steps, (Resolver.addIn room {} chain).2 = .error (.deepMapEntry steps) := by
  have only : chain.visibleFields = [links "links" 1] := rfl
  have attempt := addIn_attempt room {} chain
  generalize isOutcome : Resolver.addIn room {} chain = outcome at attempt
  cases attempt with
  | missing dependency isDependency => cases isDependency
  | built unit =>
    have returned : (Resolver.addIn room {} chain).2 = .ok unit := by rw [isOutcome]
    have ends : Ends (tableFor {} chain) (links "links" 1) := ends_of_returned returned (by simp [only])
    exact absurd links_endless (ends_iff.mp ends)
  | failed e _ failed =>
    rcases buildFile_eq_error (symbols_subset_tableFor {} chain) failed with
      ⟨n, isNode, shown, field, isField, failed⟩ | ⟨_, isService, _⟩
    · have visible := Descriptor.File.mem_visibleFields.mpr ⟨n, isNode, shown, isField⟩
      rw [only, List.mem_singleton] at visible
      subst visible
      rcases placeField_eq_error failed with ⟨_, standing, _⟩ | ⟨oneof, failed⟩
      · cases standing
      · obtain ⟨steps, out⟩ := links_endless.runsOut _ _ oneof
        exact ⟨steps, congrArg _ (Except.error.inj (failed.symm.trans out))⟩
    · cases isService

theorem chain_runsOut : links "links" 1 ∈ chain.visibleFields ∧
    (∀ depth context oneof, RunsOut (tableFor {} chain) depth (links "links" 1) context oneof) ∧
      ∃ steps, (Resolver.add {} chain).2 = .error (.deepMapEntry steps) :=
  ⟨List.mem_singleton.mpr rfl, links_endless.runsOut, chain_deep hostRoom⟩

end ProtoBindings.Resolver
