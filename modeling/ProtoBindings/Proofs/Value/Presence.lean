import ProtoBindings.Proofs.Mapping.Answers
import ProtoBindings.Proofs.Resolver.Unit
import ProtoBindings.Proofs.Value.Written

namespace ProtoBindings.Value

open Code (Expr Head Stmt)
open Mapping (MappedType Transform)
open Schema (ElementType Field FieldInfo Message)

variable {mapper : Mapper}

section Forms

/-- An expression that gives `None` unless the host field is set. -/
def ReadsIfSet (owner : Expr) (name : String) (e : Expr) : Prop :=
  ∃ value, e = .conditional value (isSet owner name) .none

/-- One statement, which is passed over if the source is `None`. -/
def WritesIfPresent (source : Expr) (body : List Stmt) : Prop :=
  ∃ s, body = [.compound (.ifTest (.isNotNone source)) [s]]

def HasGuard (source : Expr) (body : List Stmt) : Prop :=
  ∃ guarded, .compound (.ifTest (.isNotNone source)) guarded ∈ body

theorem WritesIfPresent.hasGuard {source : Expr} {body : List Stmt}
    (writes : WritesIfPresent source body) : HasGuard source body := by
  obtain ⟨s, whole⟩ := writes
  exact ⟨[s], whole ▸ List.mem_singleton_self _⟩

def HasMethod (m : Message) (f : Field) : Prop :=
  ∃ g ∈ presenceMethods m, g.name = "has_" ++ f.name

end Forms

section Element

variable {e : ElementType}

theorem mapElement_default (notMessage : e.isMessage = false) {t : MappedType}
    (result : mapper.mapElement e = .ok t) :
    t.nullable = false ∧ (∀ type, t.type ≠ .generic "Optional" [type]) ∧
      t.default.toExpr ≠ .none := by
  cases e with
  | scalar type =>
    cases result
    refine ⟨rfl, by simp [Expr.generic], ?_⟩
    cases type <;> decide
  | enum ref =>
    rw [Mapper.mapElement, Mapper.mapEnum] at result
    split at result
    · cases result
      exact ⟨rfl, by simp [Expr.generic], by decide⟩
    · obtain ⟨first, _, result⟩ := Result.bind_eq_ok.mp result
      cases result
      refine ⟨rfl, fun type same => ?_, by simp [Mapping.Default.toExpr, Expr.none]⟩
      rw [Scope.generatedClass, Scope.generatedName] at same
      split at same
      · cases same
      · cases same
  | message ref => cases notMessage
  | unknownScalar | undeclared | missing => cases result

theorem reader_hasHole (notMessage : e.isMessage = false) {t : Transform}
    (result : mapper.reader e = .ok t) : t.conversion.hasHole = true := by
  cases e with
  | scalar | unknownScalar =>
    cases result
    rfl
  | enum ref =>
    rw [Mapper.reader] at result
    split at result
    · cases result
      rfl
    · rw [Mapper.generatedTransform_eq_ok result]
      rfl
  | message ref => cases notMessage
  | undeclared | missing => cases result

end Element

theorem hostField_ne_conditional {owner value test otherwise : Expr} {name : String} :
    hostField owner name ≠ .conditional value test otherwise := by
  unfold hostField
  split <;> exact fun same => nomatch same

theorem apply_ne_conditional {c : Conversion} (hole : c.hasHole = true)
    {owner value test otherwise : Expr} {name : String} :
    c.apply (hostField owner name) ≠ .conditional value test otherwise := by
  cases c with
  | identity => exact hostField_ne_conditional
  | content => exact fun same => nomatch same
  | constant result => cases hole
  | call function => exact fun same => nomatch same

theorem writeSingle_ne_compound {owner source : Expr} {info : FieldInfo} {c : Conversion} {head : Head}
    {body : List Stmt} : writeSingle owner source info c ≠ .compound head body := by
  unfold writeSingle assignHostField
  split
  · split <;> exact fun same => nomatch same
  · split <;> exact fun same => nomatch same

def IsSingle (f : Field) : Prop := f.isMap = false ∧ f.info.isRepeated = false

theorem isSingle_ordinary {info : FieldInfo} (notRepeated : ¬ info.isRepeated = true) :
    IsSingle (.ordinary info) := ⟨rfl, Bool.eq_false_iff.mpr notRepeated⟩

section Field

variable {f : Field} {owner source : Expr}

section Present

variable (single : IsSingle f) (present : f.hasPresence = true)
include single present

theorem mapField_present {t : MappedType} (result : mapper.mapField f = .ok t) :
    t.nullable = true ∧ (∃ type, t.type = .generic "Optional" [type]) ∧ t.default.toExpr = .none := by
  cases f with
  | map => cases single.1
  | ordinary info =>
    obtain ⟨base, _, result⟩ := Result.bind_eq_ok.mp result
    have notRepeated : ¬ info.isRepeated = true := by simp [show info.isRepeated = false from single.2]
    rw [if_neg notRepeated, if_pos present] at result
    cases result
    exact ⟨rfl, ⟨base.type, rfl⟩, rfl⟩

theorem readWith_present (c : Conversion) : ReadsIfSet owner f.name (readWith owner f c) := by
  cases f with
  | map => cases single.1
  | ordinary info =>
    have notRepeated : info.isRepeated = false := single.2
    refine ⟨c.apply (hostField owner info.name), ?_⟩
    simp only [readWith, notRepeated, present, Bool.false_eq_true, if_false, if_true]
    rfl

theorem writeWith_present (c : Conversion) : WritesIfPresent source (writeWith owner source f c) := by
  cases f with
  | map => cases single.1
  | ordinary info =>
    have notRepeated : info.isRepeated = false := single.2
    refine ⟨writeSingle owner source info c, ?_⟩
    simp only [writeWith, notRepeated, present, Bool.false_eq_true, if_false, if_true]

end Present

section Absent

variable (absent : f.hasPresence = false)
include absent

theorem element_of_absent (single : IsSingle f) : f.element.isMessage = false := by
  rw [Field.hasPresence, Field.isImplicitOptional, single.1, single.2, Bool.or_eq_false_iff] at absent
  simpa using absent.2

theorem mapField_absent {t : MappedType} (result : mapper.mapField f = .ok t) :
    t.nullable = false ∧ (∀ type, t.type ≠ .generic "Optional" [type]) ∧
      t.default.toExpr ≠ .none := by
  cases f with
  | map info key value =>
    obtain ⟨_, _, result⟩ := Result.bind_eq_ok.mp result
    obtain ⟨_, _, result⟩ := Result.bind_eq_ok.mp result
    cases result
    exact ⟨rfl, by simp [Expr.generic], by simp [Mapping.Default.toExpr, Expr.none]⟩
  | ordinary info =>
    obtain ⟨base, found, result⟩ := Result.bind_eq_ok.mp result
    split at result
    · cases result
      exact ⟨rfl, by simp [Expr.generic], by simp [Mapping.Default.toExpr, Expr.none]⟩
    · rename_i notRepeated
      rw [absent, if_neg Bool.false_ne_true] at result
      cases result
      have single := isSingle_ordinary notRepeated
      exact mapElement_default (element_of_absent absent single) found

theorem readWith_absent {c : Conversion} (hole : IsSingle f → c.hasHole = true) :
    ¬ ReadsIfSet owner f.name (readWith owner f c) := by
  rintro ⟨value, same⟩
  unfold readWith at same
  cases f with
  | map info key entry =>
    simp only at same
    split at same
    · cases same
    · cases same
  | ordinary info =>
    simp only [absent, Bool.false_eq_true, if_false] at same
    split at same
    · split at same
      · cases same
      · cases same
    · rename_i notRepeated
      have single := isSingle_ordinary notRepeated
      exact apply_ne_conditional (hole single) same

theorem writeWith_absent (c : Conversion) : ¬ HasGuard source (writeWith owner source f c) := by
  rintro ⟨guarded, member⟩
  unfold writeWith at member
  cases f with
  | map info key value =>
    simp only at member
    split at member
    · simp at member
    · split at member
      · simp at member
      · simp at member
  | ordinary info =>
    simp only [absent, Bool.false_eq_true, if_false] at member
    split at member
    · split at member
      · simp at member
      · simp at member
    · exact writeSingle_ne_compound (List.mem_singleton.mp member).symm

end Absent

section Presence

variable (single : f.hasPresence = true → IsSingle f)
include single

theorem mapField_presence {t : MappedType} (result : mapper.mapField f = .ok t) :
    (t.nullable = true ↔ f.hasPresence = true) ∧
      ((∃ type, t.type = .generic "Optional" [type]) ↔ f.hasPresence = true) ∧
      (t.default.toExpr = .none ↔ f.hasPresence = true) := by
  by_cases present : f.hasPresence = true
  · obtain ⟨nullable, optional, default⟩ := mapField_present (single present) present result
    exact ⟨iff_of_true nullable present, iff_of_true optional present, iff_of_true default present⟩
  · have absent : f.hasPresence = false := Bool.eq_false_iff.mpr present
    obtain ⟨notNullable, notOptional, default⟩ := mapField_absent absent result
    refine ⟨iff_of_false ?_ present, iff_of_false ?_ present, iff_of_false default present⟩
    · simp [notNullable]
    · simp [notOptional]

theorem readField_presence {r : Reference} (result : readField mapper owner f = .ok r) :
    ReadsIfSet owner f.name r.expr ↔ f.hasPresence = true := by
  obtain ⟨transform, found, result⟩ := Result.bind_eq_ok.mp result
  cases result
  by_cases present : f.hasPresence = true
  · exact iff_of_true (readWith_present (single present) present _) present
  · have absent : f.hasPresence = false := Bool.eq_false_iff.mpr present
    refine iff_of_false (readWith_absent absent fun isSingle => ?_) present
    cases f with
    | map => cases isSingle.1
    | ordinary info => exact reader_hasHole (element_of_absent absent isSingle) found

theorem writeField_presence {w : Statements} (result : writeField mapper owner source f = .ok w) :
    (WritesIfPresent source w.body ↔ f.hasPresence = true) ∧
      (HasGuard source w.body ↔ f.hasPresence = true) := by
  obtain ⟨transform, _, result⟩ := Result.bind_eq_ok.mp result
  cases result
  by_cases present : f.hasPresence = true
  · have writes : WritesIfPresent source (writeWith owner source f transform.conversion) :=
      writeWith_present (single present) present transform.conversion
    exact ⟨iff_of_true writes present, iff_of_true writes.hasGuard present⟩
  · have absent : f.hasPresence = false := Bool.eq_false_iff.mpr present
    have unguarded : ¬ HasGuard source (writeWith owner source f transform.conversion) :=
      writeWith_absent absent transform.conversion
    exact ⟨iff_of_false (mt WritesIfPresent.hasGuard unguarded) present,
      iff_of_false unguarded present⟩

end Presence

theorem readField_answers : (∃ r, readField mapper owner f = .ok r) ↔
    mapper.Spells (·.readerName) (convertedElement f) := by
  rw [← Mapper.reader_answers]
  exact Result.bind_pure_answers

theorem writeField_answers : (∃ w, writeField mapper owner source f = .ok w) ↔
    mapper.Spells (·.writerName) (convertedElement f) := by
  rw [← Mapper.writer_answers]
  exact Result.bind_pure_answers

end Field

section Built

variable {room : Resolver.Room} {table : Resolver.SymbolTable} {file : Descriptor.File}
  {scope : List String}
  {message : Descriptor.Message} {field : Descriptor.Field} {m : Message} {f : Field}

/-- What a description and the type it names say: the field is an optional one, or a single message. -/
def CanBeUnset (field : Descriptor.Field) (f : Field) : Prop :=
  field.isProto3Optional = true ∨
    (f.element.isMessage = true ∧ f.isMap = false ∧ field.label ≠ .repeated)

/-- The four places agree on whether a field can be without a value. The type and the conversions are
    there for each field whose types the mapper has a default for, and whose conversion functions it can
    write down. -/
structure PresenceAgrees (mapper : Mapper) (m : Message) (f : Field) (unset : Prop) : Prop where
  mapped : (∃ t, mapper.mapField f = .ok t) ↔ ∀ e ∈ f.elements, mapper.Knows e
  nullable : ∀ t, mapper.mapField f = .ok t → (t.nullable = true ↔ unset)
  optional : ∀ t, mapper.mapField f = .ok t → ((∃ type, t.type = .generic "Optional" [type]) ↔ unset)
  default : ∀ t, mapper.mapField f = .ok t → (t.default.toExpr = .none ↔ unset)
  read : ∀ owner, (∃ r, readField mapper owner f = .ok r) ↔
    mapper.Spells (·.readerName) (convertedElement f)
  tested : ∀ owner r, readField mapper owner f = .ok r → (ReadsIfSet owner f.name r.expr ↔ unset)
  written : ∀ owner source, (∃ w, writeField mapper owner source f = .ok w) ↔
    mapper.Spells (·.writerName) (convertedElement f)
  present : ∀ owner source w, writeField mapper owner source f = .ok w →
    (WritesIfPresent source w.body ↔ unset)
  guarded : ∀ owner source w, writeField mapper owner source f = .ok w →
    (HasGuard source w.body ↔ unset)
  method : HasMethod m f ↔ unset

section FieldBuilt

variable {oneof : Option String} {depth : Nat}
  (built : Resolver.FieldBuilt table field oneof depth f)
  (apart : field.isProto3Optional = true → field.label ≠ .repeated)
include built apart

theorem hasPresence_iff : f.hasPresence = true ↔ CanBeUnset field f := by
  cases built with
  | scalar type _ =>
    simp [CanBeUnset, Field.hasPresence, Field.isImplicitOptional, Resolver.ordinaryField,
      Field.element, Field.info, ElementType.isMessage]
  | named s _ _ _ =>
    simp [CanBeUnset, Field.hasPresence, Field.isImplicitOptional, Resolver.ordinaryField,
      Field.element, Field.info, Field.isMap]
  | map s entry _ _ _ key value _ _ isEntry =>
    have repeated := Resolver.Symbol.repeated_of_entry isEntry
    have notOptional : ¬ field.isProto3Optional = true := fun optional => apart optional repeated
    simp [CanBeUnset, Field.hasPresence, Field.isImplicitOptional, Field.info, Field.isMap, notOptional]

theorem isSingle_of_present (present : f.hasPresence = true) : IsSingle f := by
  have unset := (hasPresence_iff built apart).mp present
  have single : field.label ≠ .repeated := unset.elim apart (·.2.2)
  cases built with
  | scalar => exact isSingle_ordinary (by simpa using single)
  | named => exact isSingle_ordinary (by simpa using single)
  | map s entry _ _ _ key value _ _ isEntry =>
    exact absurd (Resolver.Symbol.repeated_of_entry isEntry) single

end FieldBuilt

theorem inOneof_of_built {depth : Nat} (built : Resolver.FieldBuilt table field none depth f) :
    f.inOneof = false := by
  cases built <;> rfl

theorem mem_presenceMethods {g : Code.Function} :
    g ∈ presenceMethods m ↔ ∃ f ∈ m.fields, f.hasPresence = true ∧ f.inOneof = false ∧
      presenceMethod f = g := by
  simp [presenceMethods, and_assoc]

theorem hasMethod_iff :
    HasMethod m f ↔ ∃ g ∈ m.fields, g.hasPresence = true ∧ g.inOneof = false ∧ g.name = f.name := by
  constructor
  · rintro ⟨method, isMethod, named⟩
    obtain ⟨g, isField, present, outside, rfl⟩ := mem_presenceMethods.mp isMethod
    exact ⟨g, isField, present, outside, (String.append_right_inj "has_").mp named⟩
  · rintro ⟨g, isField, present, outside, named⟩
    have isMethod := mem_presenceMethods.mpr ⟨g, isField, present, outside, rfl⟩
    exact ⟨presenceMethod g, isMethod, congrArg ("has_" ++ ·) named⟩

theorem presenceAgrees {unset : Prop} (single : f.hasPresence = true → IsSingle f)
    (decided : f.hasPresence = true ↔ unset) (method : HasMethod m f ↔ f.hasPresence = true) :
    PresenceAgrees mapper m f unset where
  mapped := Mapper.mapField_answers
  nullable _ result := (mapField_presence single result).1.trans decided
  optional _ result := (mapField_presence single result).2.1.trans decided
  default _ result := (mapField_presence single result).2.2.trans decided
  read _ := readField_answers
  tested _ _ result := (readField_presence single result).trans decided
  written _ _ := writeField_answers
  present _ _ _ result := (writeField_presence single result).1.trans decided
  guarded _ _ _ result := (writeField_presence single result).2.trans decided
  method := method.trans decided

theorem fieldNames_nodup {placed : List Resolver.PlacedField}
    (distinct : (message.fields.map (·.name)).Nodup)
    (result : Resolver.MessageBuilt room table file scope message placed m) :
    (m.fields.map (·.name)).Nodup := by
  rw [result.fields_names]
  exact distinct.sublist (List.filter_sublist.map _)

/-- For every message that the resolver builds, the type and default, the reader, the writer and the
    methods of its class treat a field outside oneofs as one that can be without a value exactly if it
    is optional or a single message. No field of a oneof has a method. -/
theorem built_message_presence (distinct : (message.fields.map (·.name)).Nodup)
    (apart : ∀ field ∈ message.fields, field.isProto3Optional = true → field.label ≠ .repeated)
    (built : Resolver.buildMessage room table file scope message = .ok m) (mapper : Mapper) :
    (∀ f ∈ m.fields, ∃ field ∈ message.fields, field.name = f.name ∧
      PresenceAgrees mapper m f (CanBeUnset field f)) ∧
    ∀ o ∈ m.oneofs, ∀ f ∈ o.fields, ¬ HasMethod m f := by
  obtain ⟨placed, result⟩ := Resolver.buildMessage_eq_ok built
  constructor
  · intro f isField
    obtain ⟨field, declared, _, fieldBuilt⟩ := result.plain isField
    have single := isSingle_of_present fieldBuilt (apart field declared)
    have decided := hasPresence_iff fieldBuilt (apart field declared)
    have method : HasMethod m f ↔ f.hasPresence = true := by
      rw [hasMethod_iff]
      constructor
      · rintro ⟨g, isOther, present, _, named⟩
        have names := fieldNames_nodup distinct result
        exact List.inj_on_of_nodup_map names isOther isField named ▸ present
      · intro present
        exact ⟨f, isField, present, inOneof_of_built fieldBuilt, rfl⟩
    exact ⟨field, declared, fieldBuilt.name.symm, presenceAgrees single decided method⟩
  · intro o isOneof f isField has
    obtain ⟨g, isPlain, _, _, named⟩ := hasMethod_iff.mp has
    obtain ⟨field, declared, real, fieldBuilt⟩ := result.oneofField isOneof isField
    obtain ⟨other, isDeclared, plain, otherBuilt⟩ := result.plain isPlain
    have sameName : other.name = field.name :=
      otherBuilt.name.symm.trans (named.trans fieldBuilt.name)
    have same := List.inj_on_of_nodup_map distinct isDeclared declared sameName
    exact real (same ▸ plain)

end Built

section Examples

def letter : Descriptor.Message where
  name := "Letter"
  fields := [
    { name := "note", number := 1, type := .scalar .string, oneofIndex := some 1,
      isProto3Optional := true },
    { name := "stamp", number := 2, type := .message, typeName := ".Letter.Stamp" },
    { name := "lines", number := 3, type := .scalar .string, label := .repeated },
    { name := "text", number := 4, type := .scalar .string, oneofIndex := some 0 },
    { name := "seal", number := 5, type := .message, typeName := ".Letter.Stamp",
      oneofIndex := some 0 }]
  oneofs := ["body", "_note"]
  messages := [{ name := "Stamp" }]

def letterFile : Descriptor.File where
  name := "letter.proto"
  messages := [letter]

def ownSymbols (file : Descriptor.File) : Resolver.SymbolTable :=
  Resolver.SymbolTable.extend {} (Resolver.fileSymbols file)

def ownMapper (file : Descriptor.File) : Mapper where
  scope := { file := file.name, package := file.package }
  enums := file.enums.filterMap fun e => (Resolver.buildEnum (ownSymbols file) file [] e).toOption

theorem letter_presence :
    (letter.fields.map (·.name)).Nodup ∧
    (∀ field ∈ letter.fields, field.isProto3Optional = true → field.label ≠ .repeated) ∧
    ∃ m, Resolver.buildMessage Resolver.hostRoom (ownSymbols letterFile) letterFile [] letter = .ok m ∧
      m.fields.map (·.name) = ["note", "stamp", "lines"] ∧
      (∀ f ∈ m.fields, ∃ field ∈ letter.fields, field.name = f.name ∧
        PresenceAgrees (ownMapper letterFile) m f (CanBeUnset field f)) ∧
      m.oneofs.flatMap (·.fields.map (·.name)) = ["text", "seal"] ∧
      ∀ o ∈ m.oneofs, ∀ f ∈ o.fields, ¬ HasMethod m f := by
  have distinct : (letter.fields.map (·.name)).Nodup := by decide
  have apart : ∀ field ∈ letter.fields, field.isProto3Optional = true → field.label ≠ .repeated := by
    decide
  obtain ⟨m, built, plain, standing⟩ : ∃ m,
      Resolver.buildMessage Resolver.hostRoom (ownSymbols letterFile) letterFile [] letter = .ok m ∧
        m.fields.map (·.name) = ["note", "stamp", "lines"] ∧
        m.oneofs.flatMap (·.fields.map (·.name)) = ["text", "seal"] := by
    decide +kernel
  obtain ⟨fields, oneofs⟩ := built_message_presence distinct apart built (ownMapper letterFile)
  exact ⟨distinct, apart, m, built, plain, fields, standing, oneofs⟩

instance (field : Descriptor.Field) (f : Field) : Decidable (CanBeUnset field f) :=
  inferInstanceAs (Decidable (_ ∨ _))

def WantsFor {α : Type} (file : Descriptor.File) (message : Descriptor.Message)
    (part : Mapper → Field → Except Mapping.Error α) : Prop :=
  (message.fields.map (·.name)).Nodup ∧
  (∀ field ∈ message.fields, field.isProto3Optional = true → field.label ≠ .repeated) ∧
  ∃ m, Resolver.buildMessage Resolver.hostRoom (ownSymbols file) file [] message = .ok m ∧
    ∃ f ∈ m.fields, ∃ field ∈ message.fields, field.name = f.name ∧ CanBeUnset field f ∧
      (part (ownMapper file) f).toOption = none

def brush : Descriptor.Message where
  name := "Brush"
  fields := [
    { name := "color", number := 1, type := .enum, typeName := ".Color", oneofIndex := some 0,
      isProto3Optional := true }]
  oneofs := ["_color"]

def brushFile : Descriptor.File where
  name := "brush.proto"
  messages := [brush]
  enums := [{ name := "Color" }]

def share : Descriptor.Message where
  name := "Share%"
  fields := [{ name := "rest", number := 1, type := .message, typeName := ".Share%" }]

def shareFile : Descriptor.File where
  name := "share.proto"
  messages := [share]

theorem brush_wants_type :
    WantsFor brushFile brush Mapper.mapField ∧
    WantsFor shareFile share (readField · messageName ·) ∧
    WantsFor shareFile share (writeField · messageName valueName ·) :=
  ⟨⟨by decide, by decide, by decide +kernel⟩,
    ⟨by decide, by decide, by decide +kernel⟩,
    ⟨by decide, by decide, by decide +kernel⟩⟩

end Examples

end ProtoBindings.Value
