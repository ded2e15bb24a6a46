import ProtoBindings.Proofs.Result
import ProtoBindings.Proofs.Schema.Fields
import ProtoBindings.Value.Converter

namespace ProtoBindings.Value

open Code (Function)
open Schema (Field Member Message Oneof)

variable {mapper : Mapper} {m : Message} {o : Oneof} {f : Field} {a : Attribute}

section Walk

variable {α : Type} {treat : Member → Except Mapping.Error α}

theorem eachMember_eq (complete : m.Complete) : eachMember m treat = m.members.mapM treat := by
  rw [eachMember, complete.entries_eq, List.mapM_map]
  rfl

theorem eachMember_congr {other : Member → Except Mapping.Error α}
    (same : ∀ member ∈ m.members, treat member = other member) : eachMember m treat = eachMember m other := by
  refine Result.mapM_congr fun entry isEntry => ?_
  cases entry with
  | error name => rfl
  | ok member => exact same member (Message.ok_mem_entriesFrom.mp isEntry)

theorem eachMember_eq_ok {results : List α} : eachMember m treat = .ok results ↔
    m.Complete ∧ List.Forall₂ (fun member result => treat member = .ok result) m.members results := by
  rw [← Result.mapM_eq_ok]
  constructor
  · intro walk
    have found : ∀ entry ∈ m.entries, entry.isOk = true := by
      intro entry isEntry
      obtain ⟨_, _, done⟩ := (Result.mapM_eq_ok.mp walk).exists_right isEntry
      cases entry with
      | error name => cases done
      | ok member => rfl
    have complete : m.Complete := Message.found_of_entriesFrom found
    exact ⟨complete, eachMember_eq complete ▸ walk⟩
  · rintro ⟨complete, walk⟩
    rw [eachMember_eq complete, walk]

end Walk

theorem fieldAttribute_eq_ok (result : fieldAttribute mapper f = .ok a) :
    a.name = Name.escape f.name ∧ ∃ mapped, mapper.mapField f = .ok mapped ∧
      a.type = mapped.type ∧ a.default = mapped.default.toExpr ∧ a.imports = mapped.imports := by
  simp only [fieldAttribute, Result.bind_eq_ok, Result.pure_eq_ok] at result
  obtain ⟨mapped, found, rfl⟩ := result
  exact ⟨rfl, mapped, found, rfl, rfl, rfl⟩

theorem memberAttribute_name {member : Member} (result : memberAttribute mapper m member = .ok a) :
    a.name = Name.escape member.name := by
  cases member with
  | field f => exact (fieldAttribute_eq_ok result).1
  | oneof o =>
    cases result
    rfl

theorem variantClass_eq_ok {d : DataClass} (result : variantClass mapper m o f = .ok d) :
    d.name = Name.variantName (oneofTypeName m o) f.name ∧ d.methods = [] ∧
      ∃ a, fieldAttribute mapper f = .ok a ∧ d.attributes = [a] := by
  simp only [variantClass, Result.bind_eq_ok, Result.pure_eq_ok] at result
  obtain ⟨a, found, rfl⟩ := result
  exact ⟨rfl, rfl, a, found, rfl⟩

variable {declarations : List Declaration}

theorem oneofDeclarations_eq_ok (result : oneofDeclarations mapper m o = .ok declarations) :
    ∃ variants, List.Forall₂ (fun f d => variantClass mapper m o f = .ok d) o.fields variants ∧
      declarations =
        variants.map .dataClass ++ [.union (oneofTypeName m o) (variants.map (·.name))] := by
  simp only [oneofDeclarations, Result.bind_eq_ok, Result.pure_eq_ok, Result.mapM_eq_ok] at result
  obtain ⟨variants, walk, rfl⟩ := result
  exact ⟨variants, walk, rfl⟩

structure ClassBuilt (mapper : Mapper) (m : Message) (c : DataClass) : Prop where
  name : c.name = m.ref.className
  attributes : List.Forall₂ (fun member a => memberAttribute mapper m member = .ok a)
    m.members c.attributes
  methods : c.methods = presenceMethods m

theorem messageDeclarations_eq_ok (result : messageDeclarations mapper m = .ok declarations) :
    ∃ oneofs c, declarations = oneofs.flatten ++ [.dataClass c] ∧
      List.Forall₂ (fun o ds => oneofDeclarations mapper m o = .ok ds) m.oneofs oneofs ∧
      ClassBuilt mapper m c := by
  simp only [messageDeclarations, Result.bind_eq_ok, Result.pure_eq_ok, Result.mapM_eq_ok,
    eachMember_eq_ok] at result
  obtain ⟨oneofs, walk, attributes, ⟨_, members⟩, rfl⟩ := result
  exact ⟨oneofs, _, rfl, walk, rfl, members, rfl⟩

inductive DeclaredBy (mapper : Mapper) (m : Message) : Declaration → Prop
  | variant {o : Oneof} {f : Field} {d : DataClass} : o ∈ m.oneofs → f ∈ o.fields →
      variantClass mapper m o f = .ok d → DeclaredBy mapper m (.dataClass d)
  | union {o : Oneof} {variants : List DataClass} : o ∈ m.oneofs →
      DeclaredBy mapper m (.union (oneofTypeName m o) (variants.map (·.name)))
  | message {c : DataClass} : ClassBuilt mapper m c → DeclaredBy mapper m (.dataClass c)

theorem declaredBy_of_mem (result : messageDeclarations mapper m = .ok declarations)
    {d : Declaration} (isDeclared : d ∈ declarations) : DeclaredBy mapper m d := by
  obtain ⟨oneofs, c, rfl, walk, built⟩ := messageDeclarations_eq_ok result
  rcases List.mem_append.mp isDeclared with inOneof | isClass
  · obtain ⟨chunk, isChunk, inChunk⟩ := List.mem_flatten.mp inOneof
    obtain ⟨o, isOneof, found⟩ := walk.exists_left isChunk
    obtain ⟨variants, areVariants, rfl⟩ := oneofDeclarations_eq_ok found
    rcases List.mem_append.mp inChunk with isVariant | isUnion
    · obtain ⟨variant, member, rfl⟩ := List.mem_map.mp isVariant
      obtain ⟨f, isField, found⟩ := areVariants.exists_left member
      exact .variant isOneof isField found
    · rw [List.mem_singleton.mp isUnion]
      exact .union isOneof
  · rw [List.mem_singleton.mp isClass]
    exact .message built

section Functions

variable {function : Function} {functions : List Function}

theorem messageReader_name (result : messageReader mapper m = .ok function) :
    function.name = m.ref.readerName := by
  obtain ⟨_, _, same⟩ := Result.bind_eq_ok.mp result
  cases same
  rfl

theorem messageWriter_name (result : messageWriter mapper m = .ok function) :
    function.name = m.ref.writerName := by
  obtain ⟨_, _, same⟩ := Result.bind_eq_ok.mp result
  cases same
  rfl

theorem oneofReader_name (result : oneofReader mapper m o = .ok function) :
    function.name = oneofReaderName m o := by
  obtain ⟨_, _, same⟩ := Result.bind_eq_ok.mp result
  cases same
  rfl

theorem oneofWriter_name (result : oneofWriter mapper m o = .ok function) :
    function.name = oneofWriterName m o := by
  obtain ⟨_, _, same⟩ := Result.bind_eq_ok.mp result
  cases same
  rfl

theorem messageFunctions_eq_ok (result : messageFunctions mapper m = .ok functions) :
    ∃ reader readers writer writers,
      functions = reader :: readers ++ writer :: writers ++ [bytesWriter m, bytesReader m] ∧
      messageReader mapper m = .ok reader ∧
      List.Forall₂ (fun o f => oneofReader mapper m o = .ok f) m.oneofs readers ∧
      messageWriter mapper m = .ok writer ∧
      List.Forall₂ (fun o f => oneofWriter mapper m o = .ok f) m.oneofs writers := by
  simp only [messageFunctions, Result.bind_eq_ok, Result.pure_eq_ok, Result.mapM_eq_ok] at result
  obtain ⟨reader, isReader, readers, areReaders, writer, isWriter, writers, areWriters, rfl⟩ := result
  exact ⟨reader, readers, writer, writers, rfl, isReader, areReaders, isWriter, areWriters⟩

inductive ConvertedBy (mapper : Mapper) (m : Message) : Function → Prop
  | reader {f : Function} : messageReader mapper m = .ok f → ConvertedBy mapper m f
  | writer {f : Function} : messageWriter mapper m = .ok f → ConvertedBy mapper m f
  | oneofReader {o : Oneof} {f : Function} : o ∈ m.oneofs → oneofReader mapper m o = .ok f →
      ConvertedBy mapper m f
  | oneofWriter {o : Oneof} {f : Function} : o ∈ m.oneofs → oneofWriter mapper m o = .ok f →
      ConvertedBy mapper m f
  | toBytes : ConvertedBy mapper m (bytesWriter m)
  | fromBytes : ConvertedBy mapper m (bytesReader m)

theorem convertedBy_of_mem (result : messageFunctions mapper m = .ok functions)
    (isFunction : function ∈ functions) : ConvertedBy mapper m function := by
  obtain ⟨reader, readers, writer, writers, rfl, isReader, areReaders, isWriter, areWriters⟩ :=
    messageFunctions_eq_ok result
  simp only [List.mem_append, List.mem_cons, List.not_mem_nil, or_false] at isFunction
  rcases isFunction with ((rfl | ofOneof) | rfl | ofOneof) | rfl | rfl
  · exact .reader isReader
  · obtain ⟨o, isOneof, found⟩ := areReaders.exists_left ofOneof
    exact .oneofReader isOneof found
  · exact .writer isWriter
  · obtain ⟨o, isOneof, found⟩ := areWriters.exists_left ofOneof
    exact .oneofWriter isOneof found
  · exact .toBytes
  · exact .fromBytes

end Functions

end ProtoBindings.Value
