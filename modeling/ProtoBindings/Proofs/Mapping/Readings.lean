import ProtoBindings.Proofs.Descriptor.Declaration
import ProtoBindings.Proofs.Mapping.Answers
import ProtoBindings.Proofs.Mapping.Templates
import ProtoBindings.Proofs.Value.Module
import ProtoBindings.Service.Method

namespace ProtoBindings

open Mapping (MappedType Transform)
open Schema (ElementType EnumType Message TypeRef)

namespace Scope

/-- What stands before the names of the module that declares a type. -/
def qualifier (scope : Scope) (ref : TypeRef) : String :=
  if scope.isLocal ref then "" else Name.moduleAlias (scope.moduleOf ref) ++ "."

def qualifierImports (scope : Scope) (ref : TypeRef) : List Import :=
  if scope.isLocal ref then [] else [.ofModule (scope.moduleOf ref)]

theorem generatedName_text {scope : Scope} {ref : TypeRef} {id : String} :
    (scope.generatedName ref id).expr.text = scope.qualifier ref ++ id := by
  rw [generatedName, qualifier]
  split
  · simp [Code.Expr.text]
  · simp [Code.Expr.text]

theorem generatedName_imports_eq {scope : Scope} {ref : TypeRef} {id : String} :
    (scope.generatedName ref id).imports = scope.qualifierImports ref := by
  rw [generatedName, qualifierImports]
  split <;> rfl

end Scope

namespace Mapper

def nativeTypes : List String := ["int", "float", "bool", "str", "bytes"]

/-- A type that its annotation and the conversions of its values are at one about. -/
inductive ReadAlike (mapper : Mapper) (type : MappedType) (reader writer : Transform) :
    ElementType → Prop
  | native (e : ElementType) :
      (∃ scalar, e = .scalar scalar) ∨ (∃ ref, e = .enum ref ∧ isGoogleType ref.fullName = true) →
      type.type.text ∈ nativeTypes → type.imports = [] →
      reader = ⟨.identity, []⟩ → writer = ⟨.identity, []⟩ → ReadAlike mapper type reader writer e
  | wellKnown (known : WellKnown) (ref : TypeRef) : ref.fullName = known.fullName →
      type.type = known.nativeType → type.imports = known.imports →
      reader = ⟨known.reader, known.imports⟩ → writer = ⟨known.writer, known.imports⟩ →
      ReadAlike mapper type reader writer (.message ref)
  | host (ref : TypeRef) : isGoogleType ref.fullName = true →
      (∀ known : WellKnown, known.fullName ≠ ref.fullName) →
      type.type = (hostClass ref).expr → type.imports = (hostClass ref).imports →
      reader = ⟨.call (WellKnown.supportName "copy_message"),
        (hostClass ref).imports ++ [.wellKnownSupport]⟩ →
      writer = ⟨.identity, (hostClass ref).imports⟩ → ReadAlike mapper type reader writer (.message ref)
  | generated (ref : TypeRef) (e : ElementType) : e.ref? = some ref →
      isGoogleType ref.fullName = false →
      type.type.text = mapper.scope.qualifier ref ++ ref.className →
      reader.conversion.templateText = mapper.scope.qualifier ref ++ ref.readerName ++ "(%s)" →
      writer.conversion.templateText = mapper.scope.qualifier ref ++ ref.writerName ++ "(%s)" →
      type.imports = mapper.scope.qualifierImports ref →
      reader.imports = mapper.scope.qualifierImports ref →
      writer.imports = mapper.scope.qualifierImports ref → ReadAlike mapper type reader writer e

/-- The functions of a generated type can be written down as templates. -/
def Spellable (mapper : Mapper) (e : ElementType) : Prop :=
  ∀ ref, e.ref? = some ref → isGoogleType ref.fullName = false →
    PercentFree (mapper.scope.qualifier ref ++ ref.stem)

/-- What a type is called where its module is made. -/
structure DefinedAs (ref : TypeRef) : Prop where
  messageClass : ∀ mapper (m : Message) declarations, m.ref = ref →
    Value.messageDeclarations mapper m = .ok declarations →
    ∃ oneofs c, declarations = oneofs ++ [.dataClass c] ∧ c.name = ref.className
  messageReader : ∀ mapper (m : Message) function, m.ref = ref →
    Value.messageReader mapper m = .ok function →
    function.name = ref.readerName ∧ function.returns = .name ref.className
  messageWriter : ∀ mapper (m : Message) function, m.ref = ref →
    Value.messageWriter mapper m = .ok function →
    function.name = ref.writerName ∧ function.params = [.typed "value" (.name ref.className)]
  enumClass : ∀ e : EnumType, e.ref = ref → (Value.enumClass e).name = ref.className
  enumFunctions : ∀ e : EnumType, e.ref = ref → ∃ reader writer,
    Value.enumFunctions e = [reader, writer] ∧
    (reader.name = ref.readerName ∧ reader.returns = .name ref.className) ∧
    writer.name = ref.writerName ∧ writer.params = [.typed "value" (.name ref.className)]

/-- A side of a method takes its type for the same as a field does, unless that is the empty message. -/
structure SideAlike (mapper : Mapper) (ref : TypeRef) : Prop where
  empty : ref.fullName = WellKnown.empty.fullName → ∃ side, Service.Side.of mapper ref = .ok side ∧
    side.type = .none ∧ side.reader = .lambda .none ∧
    side.writer = .lambda ((hostClass ref).expr.apply [])
  other : ref.fullName ≠ WellKnown.empty.fullName → ∀ side, Service.Side.of mapper ref = .ok side ↔
    ∃ type reader writer, mapper.mapElement (.message ref) = .ok type ∧
      mapper.reader (.message ref) = .ok reader ∧ mapper.writer (.message ref) = .ok writer ∧
      side = {
        host := (hostClass ref).expr
        type := type.type
        reader := reader.conversion.callable
        writer := writer.conversion.callable
        isEmpty := false
        hostImports := (hostClass ref).imports
        typeImports := type.imports
        converterImports := reader.imports ++ writer.imports }

/-- All that is known of one type. -/
structure SameReading (mapper : Mapper) (e : ElementType) : Prop where
  annotated : ∃ type, mapper.mapElement e = .ok type
  readable : (∃ reader, mapper.reader e = .ok reader) ↔ mapper.Spellable e
  writable : (∃ writer, mapper.writer e = .ok writer) ↔ mapper.Spellable e
  /-- Otherwise both conversions fail, at the text that should be a template. -/
  unspellable : ¬mapper.Spellable e →
    (∃ error, mapper.reader e = .error (.template error)) ∧
      ∃ error, mapper.writer e = .error (.template error)
  alike : ∀ type reader writer, mapper.mapElement e = .ok type → mapper.reader e = .ok reader →
    mapper.writer e = .ok writer → ReadAlike mapper type reader writer e
  /-- How values are converted is written in one template each, for a field as for a method. -/
  templates : ∀ transform, mapper.reader e = .ok transform ∨ mapper.writer e = .ok transform →
    ∃ t, transform.conversion.WrittenAs t
  defined : ∀ ref, e.ref? = some ref → DefinedAs ref
  side : ∀ ref, e = .message ref → SideAlike mapper ref

section Spellable

variable {mapper : Mapper} {e : ElementType}

theorem percentFree_function {ref : TypeRef} {ending : String} (plain : PercentFree ending) :
    PercentFree (mapper.scope.generatedName ref (ref.stem ++ ending)).expr.text ↔
      PercentFree (mapper.scope.qualifier ref ++ ref.stem) := by
  rw [Scope.generatedName_text, ← String.append_assoc, percentFree_append]
  exact and_iff_left plain

theorem spells_iff (known : mapper.Knows e) {ending : String} (plain : PercentFree ending) :
    mapper.Spells (fun ref => ref.stem ++ ending) e ↔ mapper.Spellable e := by
  cases e with
  | scalar => simp [Spells, Spellable, ElementType.ref?]
  | enum ref | message ref =>
    rw [Spells, percentFree_function plain]
    cases google : isGoogleType ref.fullName <;> simp [Spellable, ElementType.ref?, google]
  | unknownScalar | undeclared | missing => exact known.elim

theorem readable_iff (known : mapper.Knows e) :
    (∃ reader, mapper.reader e = .ok reader) ↔ mapper.Spellable e :=
  reader_answers.trans (spells_iff known (by decide))

theorem writable_iff (known : mapper.Knows e) :
    (∃ writer, mapper.writer e = .ok writer) ↔ mapper.Spellable e :=
  writer_answers.trans (spells_iff known (by decide))

theorem generatedTransform_eq_error {ref : TypeRef} {function : String} {e : Mapping.Error}
    (failed : mapper.generatedTransform ref function = .error e) : ∃ error, e = .template error := by
  rcases Result.bind_eq_error.mp failed with failed | ⟨_, _, done⟩
  · obtain ⟨error, _, rfl⟩ := Result.mapError_eq_error.mp failed
    exact ⟨error, rfl⟩
  · cases done

theorem unlessGoogle_eq_error {ref : TypeRef} {function : String} {known : Transform}
    {e : Mapping.Error}
    (failed : (if isGoogleType ref.fullName then .ok known
      else mapper.generatedTransform ref function) = .error e) : ∃ error, e = .template error := by
  split at failed
  · cases failed
  · exact generatedTransform_eq_error failed

theorem reader_eq_error (known : mapper.Knows e) {error : Mapping.Error}
    (failed : mapper.reader e = .error error) : ∃ inner, error = .template inner := by
  cases e with
  | scalar => cases failed
  | enum ref => exact unlessGoogle_eq_error failed
  | message ref =>
    rw [reader] at failed
    split at failed
    · cases failed
    · exact unlessGoogle_eq_error failed
  | unknownScalar | undeclared | missing => exact known.elim

theorem writer_eq_error (known : mapper.Knows e) {error : Mapping.Error}
    (failed : mapper.writer e = .error error) : ∃ inner, error = .template inner := by
  cases e with
  | scalar => cases failed
  | enum ref => exact unlessGoogle_eq_error failed
  | message ref =>
    rw [writer] at failed
    split at failed
    · cases failed
    · exact unlessGoogle_eq_error failed
  | unknownScalar | undeclared | missing => exact known.elim

end Spellable

section Alike

variable {mapper : Mapper} {e : ElementType} {type : MappedType} {reader writer : Transform}

theorem alike_generated {ref : TypeRef} (isRef : e.ref? = some ref)
    (generated : isGoogleType ref.fullName = false)
    (annotated : type.type = (mapper.scope.generatedClass ref).expr ∧
      type.imports = (mapper.scope.generatedClass ref).imports)
    (reads : mapper.generatedTransform ref ref.readerName = .ok reader)
    (writes : mapper.generatedTransform ref ref.writerName = .ok writer) :
    ReadAlike mapper type reader writer e := by
  rw [generatedTransform_eq_ok reads, generatedTransform_eq_ok writes]
  obtain ⟨named, imports⟩ := annotated
  refine .generated ref e isRef generated ?_ ?_ ?_ ?_ ?_ ?_
  · rw [named, Scope.generatedClass, Scope.generatedName_text]
  · rw [Conversion.templateText, Scope.generatedName_text]
  · rw [Conversion.templateText, Scope.generatedName_text]
  · rw [imports, Scope.generatedClass, Scope.generatedName_imports_eq]
  · exact Scope.generatedName_imports_eq
  · exact Scope.generatedName_imports_eq

theorem alike_enum {ref : TypeRef} (annotated : mapper.mapElement (.enum ref) = .ok type)
    (reads : mapper.reader (.enum ref) = .ok reader)
    (writes : mapper.writer (.enum ref) = .ok writer) :
    ReadAlike mapper type reader writer (.enum ref) := by
  rw [mapElement, mapEnum] at annotated
  rw [Mapper.reader] at reads
  rw [Mapper.writer] at writes
  cases google : isGoogleType ref.fullName with
  | true =>
    simp only [google, if_true, Result.pure_eq_ok] at annotated reads writes
    cases annotated
    cases reads
    cases writes
    exact .native _ (.inr ⟨ref, rfl, google⟩) (by decide) rfl rfl rfl
  | false =>
    simp only [google, Bool.false_eq_true, if_false, Result.bind_eq_ok, Result.pure_eq_ok]
      at annotated reads writes
    obtain ⟨first, _, rfl⟩ := annotated
    exact alike_generated rfl google ⟨rfl, rfl⟩ reads writes

theorem alike_message {ref : TypeRef} (annotated : mapper.mapElement (.message ref) = .ok type)
    (reads : mapper.reader (.message ref) = .ok reader)
    (writes : mapper.writer (.message ref) = .ok writer) :
    ReadAlike mapper type reader writer (.message ref) := by
  rw [mapElement, mapMessage, Except.ok.injEq] at annotated
  rw [Mapper.reader] at reads
  rw [Mapper.writer] at writes
  cases found : WellKnown.ofFullName? ref.fullName with
  | some known =>
    simp only [found] at annotated reads writes
    cases annotated
    cases reads
    cases writes
    have named : known.fullName = ref.fullName := by simpa using List.find?_some found
    exact .wellKnown known ref named.symm rfl rfl rfl rfl
  | none =>
    have unknown : ∀ known : WellKnown, known.fullName ≠ ref.fullName := fun known same =>
      List.find?_eq_none.mp found known (by cases known <;> decide) (beq_iff_eq.mpr same)
    cases google : isGoogleType ref.fullName with
    | true =>
      simp only [found, google, if_true] at annotated reads writes
      cases annotated
      cases reads
      cases writes
      exact .host ref google unknown rfl rfl rfl rfl
    | false =>
      simp only [found, google, Bool.false_eq_true, if_false] at annotated reads writes
      cases annotated
      exact alike_generated rfl google ⟨rfl, rfl⟩ reads writes

theorem readAlike (known : mapper.Knows e) (annotated : mapper.mapElement e = .ok type)
    (reads : mapper.reader e = .ok reader) (writes : mapper.writer e = .ok writer) :
    ReadAlike mapper type reader writer e := by
  cases e with
  | scalar scalar =>
    cases annotated
    cases reads
    cases writes
    exact .native _ (.inl ⟨scalar, rfl⟩) (by cases scalar <;> decide) rfl rfl rfl
  | enum ref => exact alike_enum annotated reads writes
  | message ref => exact alike_message annotated reads writes
  | unknownScalar | undeclared | missing => exact known.elim

end Alike

theorem definedAs (ref : TypeRef) : DefinedAs ref where
  messageClass := by
    rintro mapper m declarations rfl result
    obtain ⟨oneofs, c, rfl, _, built⟩ := Value.messageDeclarations_eq_ok result
    exact ⟨oneofs.flatten, c, rfl, built.name⟩
  messageReader := by
    rintro mapper m function rfl result
    obtain ⟨arguments, _, same⟩ := Result.bind_eq_ok.mp result
    cases same
    exact ⟨rfl, rfl⟩
  messageWriter := by
    rintro mapper m function rfl result
    obtain ⟨members, _, same⟩ := Result.bind_eq_ok.mp result
    cases same
    exact ⟨rfl, rfl⟩
  enumClass := by
    rintro e rfl
    rfl
  enumFunctions := by
    rintro e rfl
    exact ⟨_, _, rfl, ⟨rfl, rfl⟩, rfl, rfl⟩

theorem sideAlike (mapper : Mapper) (ref : TypeRef) : SideAlike mapper ref where
  empty := by
    intro isEmpty
    rw [Service.Side.of, if_pos isEmpty]
    exact ⟨_, rfl, rfl, rfl, rfl⟩
  other := by
    intro notEmpty side
    simp only [Service.Side.of, if_neg notEmpty, Result.bind_eq_ok, Result.pure_eq_ok]
    constructor
    · rintro ⟨reader, reads, writer, writes, type, annotated, rfl⟩
      exact ⟨type, reader, writer, annotated, reads, writes, rfl⟩
    · rintro ⟨type, reader, writer, annotated, reads, writes, rfl⟩
      exact ⟨reader, reads, writer, writes, type, annotated, rfl⟩

/-- The annotation of a type and its conversions come from one reading, in every module. -/
theorem sameReading {mapper : Mapper} {e : ElementType} (known : mapper.Knows e) :
    SameReading mapper e where
  annotated := mapElement_answers.mpr known
  readable := readable_iff known
  writable := writable_iff known
  unspellable := by
    intro unspellable
    constructor
    · cases result : mapper.reader e with
      | ok reader => exact absurd ((readable_iff known).mp ⟨reader, result⟩) unspellable
      | error error =>
        obtain ⟨inner, rfl⟩ := reader_eq_error known result
        exact ⟨inner, rfl⟩
    · cases result : mapper.writer e with
      | ok writer => exact absurd ((writable_iff known).mp ⟨writer, result⟩) unspellable
      | error error =>
        obtain ⟨inner, rfl⟩ := writer_eq_error known result
        exact ⟨inner, rfl⟩
  alike := fun _ _ _ => readAlike known
  templates := fun _ result => result.elim reader_written writer_written
  defined := fun ref _ => definedAs ref
  side := fun ref _ => sideAlike mapper ref

def color : EnumType where
  name := "Color"
  fullName := "acme.paint.Color"
  ref := ⟨"acme.paint.Color", "acme/paint.proto", "acme.paint", ["Color"]⟩
  values := [⟨"RED", 0⟩]

def shopMapper : Mapper where
  scope := { file := "shop.proto", package := "shop", packagePrefix := some "gen" }
  enums := [color]

theorem color_readAlike : shopMapper.Knows (.enum color.ref) ∧ ∃ type reader writer,
    shopMapper.mapElement (.enum color.ref) = .ok type ∧
    shopMapper.reader (.enum color.ref) = .ok reader ∧
    shopMapper.writer (.enum color.ref) = .ok writer ∧
    ReadAlike shopMapper type reader writer (.enum color.ref) := by
  have known : shopMapper.Knows (.enum color.ref) := .inr ⟨color, by decide, by decide⟩
  have spellable : shopMapper.Spellable (.enum color.ref) := by
    rintro _ ⟨⟩ _
    decide +kernel
  have same := sameReading known
  obtain ⟨type, annotated⟩ := same.annotated
  obtain ⟨reader, reads⟩ := same.readable.mpr spellable
  obtain ⟨writer, writes⟩ := same.writable.mpr spellable
  exact ⟨known, type, reader, writer, annotated, reads, writes,
    same.alike type reader writer annotated reads writes⟩

/-- A message whose name spoils the templates. -/
def share : Descriptor.Message := { name := "Share%" }

def shareFile : Descriptor.File := { name := "share.proto", messages := [share] }

def shareMapper : Mapper := { scope := { file := "share.proto", package := "" } }

theorem share_unreadable : shareFile.Declares [share.name] (.message share) ∧
    (∃ type, shareMapper.mapElement (.message (Resolver.refAt shareFile [share.name])) = .ok type ∧
      type.type.text = "Share%") ∧
    shareMapper.reader (.message (Resolver.refAt shareFile [share.name])) =
      .error (.template (.severalHoles "share%_to_idiom(%s)")) ∧
    shareMapper.writer (.message (Resolver.refAt shareFile [share.name])) =
      .error (.template (.severalHoles "share%_to_host(%s)")) :=
  ⟨.message List.mem_cons_self, by decide +kernel, by decide +kernel, by decide +kernel⟩

end Mapper

end ProtoBindings
