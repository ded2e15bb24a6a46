import ProtoBindings.Output
import ProtoBindings.Proofs.Mapping.Success
import ProtoBindings.Proofs.Value.Failure

namespace ProtoBindings

open Mapping (EnumIndex)
open Schema (FileUnit Message Oneof TypeRef)

structure Mapper.SupportsMessage (mapper : Mapper) (m : Message) : Prop where
  complete : m.Complete
  fields : ∀ f ∈ m.allFields, ∀ e ∈ f.element :: f.elements, mapper.Supports e

namespace Value

variable {mapper : Mapper} {m : Message} (ofPrefix : mapper.PlainPrefix)
  (supported : mapper.SupportsMessage m)

include supported in
theorem messageDeclarations_succeeds : ∃ result, messageDeclarations mapper m = .ok result := by
  refine Result.exists_of_never fun e failed => ?_
  obtain ⟨f, member, failed⟩ := messageDeclarations_eq_error supported.complete failed
  obtain ⟨t, found⟩ := Mapper.mapField_succeeds fun e isElement =>
    supported.fields f member e (List.mem_cons_of_mem _ isElement)
  rw [found] at failed
  cases failed

include ofPrefix supported

theorem reads {f : Schema.Field} (member : f ∈ m.allFields) {e : Schema.ElementType}
    (isElement : e ∈ f.element :: f.elements) (error : Mapping.Error) :
    mapper.reader e ≠ .error error := by
  obtain ⟨t, found⟩ := Mapper.reader_succeeds ofPrefix (supported.fields f member e isElement)
  rw [found]
  exact nofun

theorem writes {f : Schema.Field} (member : f ∈ m.allFields) {e : Schema.ElementType}
    (isElement : e ∈ f.element :: f.elements) (error : Mapping.Error) :
    mapper.writer e ≠ .error error := by
  obtain ⟨t, found⟩ := Mapper.writer_succeeds ofPrefix (supported.fields f member e isElement)
  rw [found]
  exact nofun

theorem messageReader_succeeds : ∃ f, messageReader mapper m = .ok f := by
  refine Result.exists_of_never fun e failed => ?_
  obtain ⟨f, member, failed⟩ := messageReader_eq_error supported.complete failed
  exact reads ofPrefix supported (Message.mem_allFields.mpr (.inl member))
    (List.mem_cons_of_mem _ (convertedElement_mem f)) e failed

theorem messageWriter_succeeds : ∃ f, messageWriter mapper m = .ok f := by
  refine Result.exists_of_never fun e failed => ?_
  obtain ⟨f, member, failed⟩ := messageWriter_eq_error supported.complete failed
  exact writes ofPrefix supported (Message.mem_allFields.mpr (.inl member))
    (List.mem_cons_of_mem _ (convertedElement_mem f)) e failed

theorem oneofReader_succeeds {o : Oneof} (isOneof : o ∈ m.oneofs) :
    ∃ f, oneofReader mapper m o = .ok f := by
  refine Result.exists_of_never fun e failed => ?_
  obtain ⟨f, member, failed⟩ := oneofReader_eq_error failed
  exact reads ofPrefix supported (Message.mem_allFields.mpr (.inr ⟨o, isOneof, member⟩))
    List.mem_cons_self e failed

theorem oneofWriter_succeeds {o : Oneof} (isOneof : o ∈ m.oneofs) :
    ∃ f, oneofWriter mapper m o = .ok f := by
  refine Result.exists_of_never fun e failed => ?_
  obtain ⟨f, member, failed⟩ := oneofWriter_eq_error failed
  have inMessage := Message.mem_allFields.mpr (.inr ⟨o, isOneof, member⟩)
  rcases failed with failed | failed
  · exact writes ofPrefix supported inMessage List.mem_cons_self e failed
  · exact writes ofPrefix supported inMessage
      (List.mem_cons_of_mem _ (convertedElement_mem f)) e failed

theorem messageFunctions_succeeds : ∃ fs, messageFunctions mapper m = .ok fs := by
  obtain ⟨reader, isReader⟩ := messageReader_succeeds ofPrefix supported
  obtain ⟨readers, areReaders⟩ := Result.mapM_succeeds fun _ isOneof =>
    oneofReader_succeeds ofPrefix supported isOneof
  obtain ⟨writer, isWriter⟩ := messageWriter_succeeds ofPrefix supported
  obtain ⟨writers, areWriters⟩ := Result.mapM_succeeds fun _ isOneof =>
    oneofWriter_succeeds ofPrefix supported isOneof
  rw [messageFunctions, isReader, areReaders, isWriter, areWriters]
  exact ⟨_, rfl⟩

omit supported in
theorem Module.ofUnit_succeeds {unit : FileUnit}
    (supported : ∀ m ∈ unit.allMessages, mapper.SupportsMessage m) :
    ∃ result, Module.ofUnit mapper unit = .ok result := by
  obtain ⟨declarations, declared⟩ := Result.mapM_succeeds fun m member =>
    messageDeclarations_succeeds (supported m member)
  obtain ⟨functions, converted⟩ := Result.mapM_succeeds fun m member =>
    messageFunctions_succeeds ofPrefix (supported m member)
  rw [Module.ofUnit, declared, converted]
  exact ⟨_, rfl⟩

end Value

namespace Service

variable {mapper : Mapper} (ofPrefix : mapper.PlainPrefix)
include ofPrefix

theorem Side.of_succeeds {ref : TypeRef} (plain : Plain ref) : ∃ side, Side.of mapper ref = .ok side := by
  obtain ⟨reader, isReader⟩ := Mapper.reader_succeeds ofPrefix (.message ref plain)
  obtain ⟨writer, isWriter⟩ := Mapper.writer_succeeds ofPrefix (.message ref plain)
  rw [Side.of, isReader, isWriter]
  split
  · exact ⟨_, rfl⟩
  · exact ⟨_, rfl⟩

theorem Module.ofUnit_succeeds {unit : FileUnit}
    (plain : ∀ s ∈ unit.services, ∀ m ∈ s.methods, Plain m.input ∧ Plain m.output) :
    ∃ result, Module.ofUnit mapper unit = .ok result := by
  obtain ⟨bound, walk⟩ : ∃ bound, unit.services.mapM (Bound.of mapper) = .ok bound := by
    refine Result.mapM_succeeds fun s isService => ?_
    obtain ⟨bindings, walk⟩ : ∃ bindings, s.methods.mapM (Binding.of mapper s) = .ok bindings := by
      refine Result.mapM_succeeds fun m isMethod => ?_
      obtain ⟨input, output⟩ := plain s isService m isMethod
      obtain ⟨request, isRequest⟩ := Side.of_succeeds ofPrefix input
      obtain ⟨response, isResponse⟩ := Side.of_succeeds ofPrefix output
      rw [Binding.of, isRequest, isResponse]
      exact ⟨_, rfl⟩
    rw [Bound.of, walk]
    exact ⟨_, rfl⟩
  rw [Module.ofUnit, walk]
  exact ⟨_, rfl⟩

end Service

namespace Output

variable {options : OutputOptions} {enums : EnumIndex} {unit : FileUnit}

def valueMapper (options : OutputOptions) (enums : EnumIndex) (unit : FileUnit) : Mapper where
  scope := { file := unit.name, package := unit.package, packagePrefix := options.packagePrefix }
  enums := enums

def serviceMapper (options : OutputOptions) (enums : EnumIndex) (unit : FileUnit) : Mapper where
  scope := { file := unit.name, package := unit.package, packagePrefix := options.packagePrefix,
             declaresTypes := false }
  enums := enums

theorem valueContent_succeeds (ofPrefix : (valueMapper options enums unit).PlainPrefix)
    (supported : ∀ m ∈ unit.allMessages, (valueMapper options enums unit).SupportsMessage m) :
    ∃ content, valueContent options enums unit = .ok content := by
  obtain ⟨result, found⟩ := Value.Module.ofUnit_succeeds ofPrefix supported
  rw [valueMapper] at found
  rw [valueContent, found]
  exact ⟨_, rfl⟩

theorem serviceContent_succeeds (ofPrefix : (serviceMapper options enums unit).PlainPrefix)
    (methods : ∀ s ∈ unit.services, ∀ m ∈ s.methods, Plain m.input ∧ Plain m.output) :
    ∃ content, serviceContent options enums unit = .ok content := by
  obtain ⟨result, found⟩ := Service.Module.ofUnit_succeeds ofPrefix methods
  rw [serviceMapper] at found
  rw [serviceContent, found]
  exact ⟨_, rfl⟩

end Output

end ProtoBindings
