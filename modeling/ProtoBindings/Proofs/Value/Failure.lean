import ProtoBindings.Proofs.Value.Parts

namespace ProtoBindings.Value

open Code (Expr)
open Schema (Field Member Message Oneof)

variable {mapper : Mapper} {m : Message} {e : Mapping.Error} {f : Field}

theorem convertedElement_mem (f : Field) : convertedElement f ∈ f.elements := by
  cases f <;> simp [convertedElement, Field.elements]

theorem fieldAttribute_eq_error (failed : fieldAttribute mapper f = .error e) :
    mapper.mapField f = .error e := by
  rcases Result.bind_eq_error.mp failed with here | ⟨_, _, done⟩
  · exact here
  · cases done

theorem writeField_eq_error {owner source : Expr} (failed : writeField mapper owner source f = .error e) :
    mapper.writer (convertedElement f) = .error e := by
  rcases Result.bind_eq_error.mp failed with here | ⟨_, _, done⟩
  · exact here
  · cases done

theorem oneofDeclarations_eq_error {o : Oneof} (failed : oneofDeclarations mapper m o = .error e) :
    ∃ f ∈ o.fields, mapper.mapField f = .error e := by
  rcases Result.bind_eq_error.mp failed with walk | ⟨_, _, done⟩
  · obtain ⟨f, member, failed⟩ := Result.mapM_eq_error walk
    rcases Result.bind_eq_error.mp failed with here | ⟨_, _, done⟩
    · exact ⟨f, member, fieldAttribute_eq_error here⟩
    · cases done
  · cases done

section Complete

variable (complete : m.Complete)
include complete

theorem eachMember_eq_error {β : Type} {treat : Member → Except Mapping.Error β}
    (oneofs : ∀ o, treat (.oneof o) ≠ .error e) (failed : eachMember m treat = .error e) :
    ∃ f ∈ m.fields, treat (.field f) = .error e := by
  rw [eachMember_eq complete] at failed
  obtain ⟨member, found, failed⟩ := Result.mapM_eq_error failed
  rcases Message.mem_members found with ⟨f, isField, rfl⟩ | ⟨o, _, rfl⟩
  · exact ⟨f, isField, failed⟩
  · exact absurd failed (oneofs o)

theorem messageDeclarations_eq_error (failed : messageDeclarations mapper m = .error e) :
    ∃ f ∈ m.allFields, mapper.mapField f = .error e := by
  rcases Result.bind_eq_error.mp failed with walk | ⟨_, _, failed⟩
  · obtain ⟨o, isOneof, failed⟩ := Result.mapM_eq_error walk
    obtain ⟨f, member, failed⟩ := oneofDeclarations_eq_error failed
    exact ⟨f, Message.mem_allFields.mpr (.inr ⟨o, isOneof, member⟩), failed⟩
  · rcases Result.bind_eq_error.mp failed with walk | ⟨_, _, done⟩
    · obtain ⟨f, member, failed⟩ := eachMember_eq_error complete (by simp [memberAttribute]) walk
      exact ⟨f, Message.mem_allFields.mpr (.inl member), fieldAttribute_eq_error failed⟩
    · cases done

theorem messageReader_eq_error (failed : messageReader mapper m = .error e) :
    ∃ f ∈ m.fields, mapper.reader (convertedElement f) = .error e := by
  rcases Result.bind_eq_error.mp failed with walk | ⟨_, _, done⟩
  · obtain ⟨f, member, failed⟩ := eachMember_eq_error complete (by simp [memberArgument]) walk
    rcases Result.bind_eq_error.mp failed with failed | ⟨_, _, done⟩
    · rcases Result.bind_eq_error.mp failed with here | ⟨_, _, done⟩
      · exact ⟨f, member, here⟩
      · cases done
    · cases done
  · cases done

theorem messageWriter_eq_error (failed : messageWriter mapper m = .error e) :
    ∃ f ∈ m.fields, mapper.writer (convertedElement f) = .error e := by
  rcases Result.bind_eq_error.mp failed with walk | ⟨_, _, done⟩
  · obtain ⟨f, member, failed⟩ := eachMember_eq_error complete (by simp [memberStatements]) walk
    exact ⟨f, member, writeField_eq_error failed⟩
  · cases done

end Complete

theorem oneofReader_eq_error {o : Oneof} (failed : oneofReader mapper m o = .error e) :
    ∃ f ∈ o.fields, mapper.reader f.element = .error e := by
  rcases Result.bind_eq_error.mp failed with walk | ⟨_, _, done⟩
  · obtain ⟨f, member, failed⟩ := Result.mapM_eq_error walk
    rcases Result.bind_eq_error.mp failed with here | ⟨_, _, done⟩
    · exact ⟨f, member, here⟩
    · cases done
  · cases done

theorem caseWriter_eq_error {o : Oneof} {isFirst : Bool}
    (failed : caseWriter mapper m o isFirst f = .error e) :
    mapper.writer f.element = .error e ∨ mapper.writer (convertedElement f) = .error e := by
  rcases Result.bind_eq_error.mp failed with body | ⟨_, _, done⟩
  · rw [caseBody] at body
    split at body
    · rcases Result.bind_eq_error.mp body with here | ⟨_, _, done⟩
      · exact .inl here
      · cases done
    · exact .inr (writeField_eq_error body)
  · cases done

theorem oneofWriter_eq_error {o : Oneof} (failed : oneofWriter mapper m o = .error e) :
    ∃ f ∈ o.fields, mapper.writer f.element = .error e ∨
      mapper.writer (convertedElement f) = .error e := by
  rcases Result.bind_eq_error.mp failed with walk | ⟨_, _, done⟩
  · rw [caseWriters] at walk
    split at walk
    · cases walk
    · rename_i first rest fields
      rw [fields]
      rcases Result.bind_eq_error.mp walk with here | ⟨_, _, later⟩
      · exact ⟨first, List.mem_cons_self, caseWriter_eq_error here⟩
      · rcases Result.bind_eq_error.mp later with later | ⟨_, _, done⟩
        · obtain ⟨f, member, failed⟩ := Result.mapM_eq_error later
          exact ⟨f, List.mem_cons_of_mem _ member, caseWriter_eq_error failed⟩
        · cases done
  · cases done

structure FailsAtTypes (mapper : Mapper) (m : Message) : Prop where
  declarations : ∀ e, messageDeclarations mapper m = .error e →
    ∃ f ∈ m.allFields, mapper.mapField f = .error e
  reader : ∀ e, messageReader mapper m = .error e →
    ∃ f ∈ m.fields, mapper.reader (convertedElement f) = .error e
  writer : ∀ e, messageWriter mapper m = .error e →
    ∃ f ∈ m.fields, mapper.writer (convertedElement f) = .error e
  oneofReader : ∀ o ∈ m.oneofs, ∀ e, oneofReader mapper m o = .error e →
    ∃ f ∈ o.fields, mapper.reader f.element = .error e
  oneofWriter : ∀ o ∈ m.oneofs, ∀ e, oneofWriter mapper m o = .error e →
    ∃ f ∈ o.fields, mapper.writer f.element = .error e ∨
      mapper.writer (convertedElement f) = .error e

theorem failsAtTypes (mapper : Mapper) {m : Message} (complete : m.Complete) : FailsAtTypes mapper m where
  declarations _ := messageDeclarations_eq_error complete
  reader _ := messageReader_eq_error complete
  writer _ := messageWriter_eq_error complete
  oneofReader _ _ _ := oneofReader_eq_error
  oneofWriter _ _ _ := oneofWriter_eq_error

end ProtoBindings.Value
