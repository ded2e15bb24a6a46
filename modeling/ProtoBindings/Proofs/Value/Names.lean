import Mathlib.Data.List.Perm.Basic
import ProtoBindings.Proofs.Name.Word
import ProtoBindings.Proofs.Output
import ProtoBindings.Proofs.Value.Imports
import ProtoBindings.Resolver.Basic

namespace ProtoBindings.Value

open Code (Function)
open Mapping (EnumIndex)
open Name (IsWord familyNames)
open Schema (EnumType FileUnit Message Oneof TypeRef)

def oneofClassNames (m : Message) (o : Oneof) : List String :=
  o.fields.map (Name.variantName (oneofTypeName m o) ·.name) ++ [oneofTypeName m o]

def functionNames (m : Message) : List String :=
  [m.ref.readerName] ++ m.oneofs.map (oneofReaderName m) ++ [m.ref.writerName] ++
    m.oneofs.map (oneofWriterName m) ++ [m.ref.stem ++ "_to_bytes"] ++ [m.ref.stem ++ "_from_bytes"]

theorem functionNames_eq : functionNames = fun m => [m.ref.readerName] ++
    m.oneofs.map (oneofReaderName m) ++ [m.ref.writerName] ++ m.oneofs.map (oneofWriterName m) ++
    [m.ref.stem ++ "_to_bytes"] ++ [m.ref.stem ++ "_from_bytes"] := rfl

theorem count_flatMap_append {α : Type} (items : List α) (f g : α → List String) (name : String) :
    (items.flatMap fun x => f x ++ g x).count name =
      (items.flatMap f).count name + (items.flatMap g).count name :=
  ((List.flatMap_append_perm items f g).count_eq name).symm.trans List.count_append

section Message

variable {mapper : Mapper} {m : Message}

theorem messageDeclarations_map_name {declarations : List Declaration}
    (result : messageDeclarations mapper m = .ok declarations) :
    declarations.map (·.name) = m.oneofs.flatMap (oneofClassNames m) ++ [m.ref.className] := by
  obtain ⟨oneofs, c, rfl, walk, built⟩ := messageDeclarations_eq_ok result
  have names : m.oneofs.map (oneofClassNames m) = oneofs.map (·.map (·.name)) := by
    refine walk.map_eq fun o declarations found => ?_
    obtain ⟨variants, areVariants, rfl⟩ := oneofDeclarations_eq_ok found
    have classes := areVariants.map_eq fun f d found => (variantClass_eq_ok found).1.symm
    rw [List.map_append, List.map_map, oneofClassNames, classes]
    rfl
  have last : (Declaration.dataClass c).name = m.ref.className := built.name
  rw [List.map_append, List.map_flatten, ← names, List.flatMap_def, List.map_singleton, last]

theorem messageFunctions_map_name {functions : List Function}
    (result : messageFunctions mapper m = .ok functions) :
    functions.map (·.name) = functionNames m := by
  obtain ⟨reader, readers, writer, writers, rfl, isReader, areReaders, isWriter, areWriters⟩ :=
    messageFunctions_eq_ok result
  have ofReaders : m.oneofs.map (oneofReaderName m) = readers.map (·.name) :=
    areReaders.map_eq fun o f found => (oneofReader_name found).symm
  have ofWriters : m.oneofs.map (oneofWriterName m) = writers.map (·.name) :=
    areWriters.map_eq fun o f found => (oneofWriter_name found).symm
  simp [functionNames, messageReader_name isReader, messageWriter_name isWriter, ofReaders, ofWriters,
    bytesWriter, bytesReader]

end Message

def classNames (unit : FileUnit) : List String :=
  unit.allEnums.map (·.ref.className) ++ unit.allMessages.map (·.ref.className)

def enumStems (unit : FileUnit) : List String := unit.allEnums.map (·.ref.stem)

def messageStems (unit : FileUnit) : List String := unit.allMessages.map (·.ref.stem)

def codeFamilies (unit : FileUnit) : List (String × List String) :=
  let enums := enumStems unit
  let messages := messageStems unit
  [("_to_idiom", enums ++ messages), ("_to_host", enums ++ messages), ("_to_bytes", messages),
    ("_from_bytes", messages), ("_FROM_HOST", (enums.map Unicode.upper).map ("_" ++ ·)),
    ("_TO_HOST", (enums.map Unicode.upper).map ("_" ++ ·)), ("_PARSER", messages.map Unicode.upper)]

def declaredNames (unit : FileUnit) : List String :=
  classNames unit ++ familyNames (codeFamilies unit)

/-- What a module binds for oneofs. -/
def oneofNames (unit : FileUnit) : List String :=
  unit.allMessages.flatMap (fun m => m.oneofs.flatMap (oneofClassNames m)) ++
    unit.allMessages.flatMap (fun m => m.oneofs.map (oneofReaderName m)) ++
    unit.allMessages.flatMap (fun m => m.oneofs.map (oneofWriterName m))

section Definitions

variable {mapper : Mapper} {unit : FileUnit} {module : Module}
  (result : Module.ofUnit mapper unit = .ok module)
include result

theorem Module.declarations_map_name : module.declarations.map (·.name) =
    unit.allMessages.flatMap
      (fun m => m.oneofs.flatMap (oneofClassNames m) ++ [m.ref.className]) := by
  obtain ⟨declarations, functions, built⟩ := Module.ofUnit_eq_ok result
  have declared := built.declared.map_eq fun m ds found => (messageDeclarations_map_name found).symm
  rw [built.declarations, List.map_flatten, ← declared, List.flatMap_def]

theorem Module.functions_map_name : module.functions.map (·.name) =
    unit.allEnums.flatMap (fun e => [e.ref.readerName] ++ [e.ref.writerName]) ++
      unit.allMessages.flatMap functionNames := by
  obtain ⟨declarations, functions, built⟩ := Module.ofUnit_eq_ok result
  have converted := built.converted.map_eq fun m fs found => (messageFunctions_map_name found).symm
  rw [built.functions, List.map_append, List.map_flatMap, List.map_flatten, ← converted,
    List.flatMap_def]
  rfl

theorem Module.definitions_eq : module.definitions =
    unit.allEnums.map (·.ref.className) ++
    unit.allMessages.flatMap (fun m => m.oneofs.flatMap (oneofClassNames m) ++ [m.ref.className]) ++
    unit.allEnums.flatMap (fun e =>
      [EnumTables.fromHostName e.ref.constantStem] ++ [EnumTables.toHostName e.ref.constantStem]) ++
    (unit.allEnums.flatMap (fun e => [e.ref.readerName] ++ [e.ref.writerName]) ++
      unit.allMessages.flatMap functionNames) ++
    unit.allMessages.map (·.ref.constantStem ++ "_PARSER") := by
  obtain ⟨declarations, functions, built⟩ := Module.ofUnit_eq_ok result
  have ofDeclaration (d : Declaration) : d.item.defines = [d.name] := by cases d <;> rfl
  have ofDeclarations : (module.declarations.map (·.item)).flatMap (·.defines) =
      unit.allMessages.flatMap
        (fun m => m.oneofs.flatMap (oneofClassNames m) ++ [m.ref.className]) := by
    rw [List.flatMap_map, List.flatMap_congr fun d _ => ofDeclaration d, ← List.map_eq_flatMap,
      Module.declarations_map_name result]
  have ofFunctions : (module.functions.map functionItem).flatMap (·.defines) =
      unit.allEnums.flatMap (fun e => [e.ref.readerName] ++ [e.ref.writerName]) ++
        unit.allMessages.flatMap functionNames := by
    have names : (module.functions.map functionItem).flatMap (·.defines) =
        module.functions.map (·.name) := by
      rw [List.flatMap_map, List.map_eq_flatMap]
      rfl
    rw [names, Module.functions_map_name result]
  have ofEnums : (module.enums.map (·.item)).flatMap (·.defines) =
      unit.allEnums.map (·.ref.className) := by
    rw [built.enums, List.map_map, List.flatMap_map, List.map_eq_flatMap]
    rfl
  have ofTables : (module.tables.map (·.item)).flatMap (·.defines) = unit.allEnums.flatMap (fun e =>
      [EnumTables.fromHostName e.ref.constantStem] ++ [EnumTables.toHostName e.ref.constantStem]) := by
    rw [built.tables, List.map_map, List.flatMap_map]
    rfl
  have ofParsers : (module.parsers.map (·.item)).flatMap (·.defines) =
      unit.allMessages.map (·.ref.constantStem ++ "_PARSER") := by
    rw [built.parsers, List.map_map, List.flatMap_map, List.map_eq_flatMap]
    rfl
  simp only [definitions, items, bodyItems, List.flatMap_append, ofEnums, ofDeclarations, ofTables,
    ofFunctions, ofParsers]

theorem Module.definitions_perm : module.definitions.Perm (declaredNames unit ++ oneofNames unit) := by
  rw [Module.definitions_eq result, List.perm_iff_count]
  intro name
  have families : familyNames (codeFamilies unit) =
      unit.allEnums.map (·.ref.readerName) ++ unit.allMessages.map (·.ref.readerName) ++
      (unit.allEnums.map (·.ref.writerName) ++ unit.allMessages.map (·.ref.writerName)) ++
      unit.allMessages.map (·.ref.stem ++ "_to_bytes") ++
      unit.allMessages.map (·.ref.stem ++ "_from_bytes") ++
      unit.allEnums.map (EnumTables.fromHostName ·.ref.constantStem) ++
      unit.allEnums.map (EnumTables.toHostName ·.ref.constantStem) ++
      unit.allMessages.map (·.ref.constantStem ++ "_PARSER") := by
    simp only [familyNames, codeFamilies, enumStems, messageStems, List.flatMap_cons, List.flatMap_nil,
      List.append_nil, List.map_append, List.map_map, List.append_assoc]
    rfl
  simp only [declaredNames, classNames, oneofNames, families, functionNames_eq, count_flatMap_append,
    List.count_append, List.map_eq_flatMap]
  omega

end Definitions

def IsWords (unit : FileUnit) : Prop :=
  ∀ ref ∈ unit.allEnums.map (·.ref) ++ unit.allMessages.map (·.ref), ∀ part ∈ ref.path, IsWord part

/-- What keeps the names of a module distinct: classes and snake cases are distinct, no class is called
    like a function, a table, a parser or an import, and no reader is called like an import. -/
structure NamesApart (unit : FileUnit) (imports : List Import) : Prop where
  classes : (classNames unit).Nodup
  stems : (enumStems unit ++ messageStems unit).Nodup
  classesOwn : ∀ name ∈ classNames unit, name ∉ familyNames (codeFamilies unit)
  classesNew : ∀ name ∈ classNames unit, ∀ i ∈ imports, name ≠ i.bound
  readersNew : ∀ stem ∈ enumStems unit ++ messageStems unit, ∀ i ∈ imports,
    stem ++ "_to_idiom" ≠ i.bound

section Apart

variable {unit : FileUnit}

theorem isWord_flatName {ref : TypeRef} (words : ∀ part ∈ ref.path, IsWord part) :
    IsWord ref.flatName := Name.isWord_intercalate (by decide) words

theorem isSnake_stems (words : IsWords unit) :
    ∀ stem ∈ enumStems unit ++ messageStems unit, Name.IsSnake stem := by
  have stems : enumStems unit ++ messageStems unit =
      (unit.allEnums.map (·.ref) ++ unit.allMessages.map (·.ref)).map (·.stem) := by
    rw [List.map_append, List.map_map, List.map_map]
    rfl
  rw [stems]
  intro stem isStem
  obtain ⟨ref, isRef, rfl⟩ := List.mem_map.mp isStem
  exact Name.isSnake_snakeCase (isWord_flatName (words ref isRef))

theorem nodup_code (words : IsWords unit) :
    (familyNames (codeFamilies unit)).Nodup ↔ (enumStems unit ++ messageStems unit).Nodup := by
  have apart : ((codeFamilies unit).map (·.1)).Pairwise Name.Apart := by
    have endings : (codeFamilies unit).map (·.1) = ["_to_idiom", "_to_host", "_to_bytes",
        "_from_bytes", "_FROM_HOST", "_TO_HOST", "_PARSER"] := rfl
    rw [endings]
    decide
  rw [Name.nodup_familyNames apart]
  constructor
  · intro distinct
    exact distinct _ List.mem_cons_self
  · intro distinct
    have snake := isSnake_stems words
    obtain ⟨ofEnums, ofMessages, _⟩ := List.nodup_append.mp distinct
    have raisedEnums := (Name.nodup_map_upper fun stem isStem =>
      snake stem (List.mem_append_left _ isStem)).mpr ofEnums
    have raisedMessages := (Name.nodup_map_upper fun stem isStem =>
      snake stem (List.mem_append_right _ isStem)).mpr ofMessages
    have tables : (((enumStems unit).map Unicode.upper).map ("_" ++ ·)).Nodup :=
      raisedEnums.map fun s t same => by simpa using same
    simp only [codeFamilies, List.forall_mem_cons]
    exact ⟨distinct, distinct, ofMessages, ofMessages, tables, tables, raisedMessages, nofun⟩

theorem code_new {scope : Scope} {refs : List Schema.TypeRef} {imports : List Import}
    (known : ImportsKnown scope refs imports) :
    (∀ name ∈ familyNames (codeFamilies unit), ∀ i ∈ imports, name ≠ i.bound) ↔
      ∀ stem ∈ enumStems unit ++ messageStems unit, ∀ i ∈ imports,
        stem ++ "_to_idiom" ≠ i.bound := by
  have endings : ∀ ending ∈ ["_to_host", "_to_bytes", "_from_bytes", "_FROM_HOST", "_TO_HOST",
      "_PARSER"], ∀ other ∈ importEndings, Name.Apart ending other := by decide
  constructor
  · intro new stem isStem i isImport
    have isReader : stem ++ "_to_idiom" ∈ familyNames (codeFamilies unit) :=
      List.mem_flatMap.mpr ⟨_, List.mem_cons_self, List.mem_map_of_mem isStem⟩
    exact new _ isReader i isImport
  · intro new name isName i isImport
    obtain ⟨family, isFamily, ofFamily⟩ := List.mem_flatMap.mp isName
    obtain ⟨start, isStart, rfl⟩ := List.mem_map.mp ofFamily
    rcases List.mem_cons.mp isFamily with rfl | isOther
    · exact new start isStart i isImport
    · have isEnding : family.1 ∈ ["_to_host", "_to_bytes", "_from_bytes", "_FROM_HOST", "_TO_HOST",
          "_PARSER"] := List.mem_map_of_mem isOther
      obtain ⟨other, isKnown, before, bound⟩ := (known i isImport).ending
      rw [bound]
      exact (endings family.1 isEnding other isKnown).append_ne start before

def BindsOnce (unit : FileUnit) (module : Module) : Prop :=
  (declaredNames unit).Nodup ∧ ∀ name ∈ declaredNames unit, ∀ i ∈ module.imports, name ≠ i.bound

theorem bindsOnce_iff {mapper : Mapper} {module : Module}
    (result : Module.ofUnit mapper unit = .ok module) (words : IsWords unit) :
    BindsOnce unit module ↔ NamesApart unit module.imports := by
  have new := @code_new unit _ _ _ (Module.imports_known result)
  rw [BindsOnce, declaredNames, List.nodup_append, nodup_code words, List.forall_mem_append, new]
  constructor
  · rintro ⟨⟨classes, stems, own⟩, classesNew, readersNew⟩
    refine ⟨classes, stems, fun name isClass isCode => ?_, classesNew, readersNew⟩
    exact own name isClass name isCode rfl
  · intro apart
    refine ⟨⟨apart.classes, apart.stems, fun name isClass other isCode same => ?_⟩,
      apart.classesNew, apart.readersNew⟩
    exact apart.classesOwn name isClass (same ▸ isCode)

end Apart

instance (unit : FileUnit) : Decidable (IsWords unit) :=
  inferInstanceAs (Decidable (∀ ref ∈ unit.allEnums.map (·.ref) ++ unit.allMessages.map (·.ref),
    ∀ part ∈ ref.path, IsWord part))

instance (unit : FileUnit) (imports : List Import) : Decidable (NamesApart unit imports) :=
  decidable_of_iff ((classNames unit).Nodup ∧ (enumStems unit ++ messageStems unit).Nodup ∧
      (∀ name ∈ classNames unit, name ∉ familyNames (codeFamilies unit)) ∧
      (∀ name ∈ classNames unit, ∀ i ∈ imports, name ≠ i.bound) ∧
      ∀ stem ∈ enumStems unit ++ messageStems unit, ∀ i ∈ imports, stem ++ "_to_idiom" ≠ i.bound)
    ⟨fun ⟨classes, stems, own, new, readers⟩ => ⟨classes, stems, own, new, readers⟩,
      fun ⟨classes, stems, own, new, readers⟩ => ⟨classes, stems, own, new, readers⟩⟩

/-- A module binds its names for messages and enums, and apart from these only names for oneofs. -/
theorem declaredNames_bindOnce_iff {mapper : Mapper} {unit : FileUnit} {module : Module}
    (result : Module.ofUnit mapper unit = .ok module) (words : IsWords unit) :
    module.definitions.Perm (declaredNames unit ++ oneofNames unit) ∧
      (BindsOnce unit module ↔ NamesApart unit module.imports) :=
  ⟨Module.definitions_perm result, bindsOnce_iff result words⟩

section Examples

def moduleOf (resolver : Resolver) (unit : FileUnit) : Except Mapping.Error Module :=
  Module.ofUnit (Output.valueMapper {} (EnumIndex.ofUnits resolver.files) unit) unit

def OfFile (file : Descriptor.File) (p : FileUnit → Module → Prop) : Prop :=
  ∃ resolver, resolve [file] = .ok resolver ∧ ∃ unit ∈ resolver.files, ∃ module,
    moduleOf resolver unit = .ok module ∧ p unit module

instance (file : Descriptor.File) (p : FileUnit → Module → Prop)
    [∀ unit module, Decidable (p unit module)] : Decidable (OfFile file p) :=
  inferInstanceAs (Decidable (∃ resolver, resolve [file] = .ok resolver ∧
    ∃ unit ∈ resolver.files, ∃ module, moduleOf resolver unit = .ok module ∧ p unit module))

instance (unit : FileUnit) (module : Module) : Decidable (BindsOnce unit module) :=
  inferInstanceAs (Decidable ((declaredNames unit).Nodup ∧
    ∀ name ∈ declaredNames unit, ∀ i ∈ module.imports, name ≠ i.bound))

def contacts : Descriptor.File where
  name := "contacts.proto"
  messages := [{
    name := "Person"
    fields := [{ name := "home", number := 1, type := .message, typeName := ".Person.Address" }]
    messages := [{ name := "Address" }]
    enums := [{ name := "Kind", values := [⟨"FRIEND", 0⟩] }] }]
  enums := [{ name := "HTTPCode", values := [⟨"OK", 200⟩] }]

theorem contacts_bindOnce : OfFile contacts fun unit module => IsWords unit ∧ BindsOnce unit module := by
  have apart : OfFile contacts fun unit module =>
      IsWords unit ∧ NamesApart unit module.imports := by decide +kernel
  obtain ⟨resolver, resolved, unit, isUnit, module, result, words, apart⟩ := apart
  have binds := (declaredNames_bindOnce_iff result words).2.mpr apart
  exact ⟨resolver, resolved, unit, isUnit, module, result, words, binds⟩

/-- The class of a nested message has the name of another message. -/
def people : Descriptor.File where
  name := "people.proto"
  messages := [{ name := "Person", messages := [{ name := "Address" }] }, { name := "PersonAddress" }]

/-- The class of a message hides what the module imports for the types of its fields. -/
def choices : Descriptor.File where
  name := "choices.proto"
  messages := [{
    name := "Optional"
    fields := [{ name := "next", number := 1, type := .message, typeName := ".Optional" }] }]

def ClashOnly (unit : FileUnit) (module : Module) : Prop :=
  IsWords unit ∧ (unit.allMessages.map (·.fullName) ++ unit.allEnums.map (·.fullName)).Nodup ∧
    ¬ BindsOnce unit module

instance (unit : FileUnit) (module : Module) : Decidable (ClashOnly unit module) :=
  inferInstanceAs (Decidable (IsWords unit ∧
    (unit.allMessages.map (·.fullName) ++ unit.allEnums.map (·.fullName)).Nodup ∧
      ¬ BindsOnce unit module))

theorem people_clash : OfFile people ClashOnly ∧ OfFile choices ClashOnly :=
  ⟨by decide +kernel, by decide +kernel⟩

end Examples

end ProtoBindings.Value
