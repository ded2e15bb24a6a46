import ProtoBindings.Schema.Members
import ProtoBindings.Schema.Basic

namespace ProtoBindings.Schema

def Field.elements : Field → List ElementType
  | .ordinary info => [info.element]
  | .map _ key value => [key.element, value.element]

def Field.refs : Field → List TypeRef
  | .ordinary info => info.element.ref?.toList
  | .map info key value => info.element.ref?.toList ++ key.refs ++ value.refs

theorem Field.element_refs (f : Field) : f.element.ref?.toList ⊆ f.refs := by
  cases f with
  | ordinary info => exact List.Subset.refl _
  | map info key value =>
    exact List.Subset.trans (List.subset_append_left _ _) (List.subset_append_left _ _)

theorem Field.refs_of_element {f : Field} {e : ElementType} (isElement : e ∈ f.element :: f.elements) :
    e.ref?.toList ⊆ f.refs := by
  rcases List.mem_cons.mp isElement with rfl | isElement
  · exact f.element_refs
  · cases f with
    | ordinary info =>
      rw [List.mem_singleton.mp isElement]
      exact List.Subset.refl _
    | map info key value =>
      rcases List.mem_cons.mp isElement with rfl | isElement
      · refine List.Subset.trans key.element_refs ?_
        exact List.Subset.trans (List.subset_append_right _ _) (List.subset_append_left _ _)
      · rw [List.mem_singleton.mp isElement]
        exact List.Subset.trans value.element_refs (List.subset_append_right _ _)

namespace Message

def allFields (m : Message) : List Field := m.fields ++ m.oneofs.flatMap (·.fields)

theorem mem_allFields {m : Message} {f : Field} :
    f ∈ m.allFields ↔ f ∈ m.fields ∨ ∃ o ∈ m.oneofs, f ∈ o.fields := by
  simp [allFields]

def fieldRefs (m : Message) : List TypeRef := m.allFields.flatMap (·.refs)

theorem refs_of_field {m : Message} {f : Field} (isField : f ∈ m.allFields) : f.refs ⊆ m.fieldRefs :=
  fun _ member => List.mem_flatMap.mpr ⟨f, isField, member⟩

def membersOf (m : Message) (seen : List String) : List String → List Member
  | [] => []
  | name :: rest =>
    match m.plainField? name with
    | some f => .field f :: m.membersOf seen rest
    | none =>
      match m.oneofOf? name with
      | none => m.membersOf seen rest
      | some o =>
        if seen.contains o.name then m.membersOf seen rest
        else .oneof o :: m.membersOf (o.name :: seen) rest

def members (m : Message) : List Member := m.membersOf [] m.declarationOrder

/-- Each name in the order of declarations is that of a field, in a oneof or not. -/
def Complete (m : Message) : Prop :=
  ∀ name ∈ m.declarationOrder, (m.plainField? name).isSome = true ∨ (m.oneofOf? name).isSome = true

theorem entriesFrom_eq {m : Message} {names seen : List String}
    (found : ∀ name ∈ names, (m.plainField? name).isSome = true ∨ (m.oneofOf? name).isSome = true) :
    m.entriesFrom seen names = (m.membersOf seen names).map .ok := by
  induction names generalizing seen with
  | nil => rfl
  | cons name rest ih =>
    obtain ⟨here, later⟩ := List.forall_mem_cons.mp found
    rw [entriesFrom, membersOf]
    cases plain : m.plainField? name with
    | some f => simp only [ih later, List.map_cons]
    | none =>
      cases ofOneof : m.oneofOf? name with
      | none => simp [plain, ofOneof] at here
      | some o =>
        simp only [ih later]
        split <;> rfl

theorem found_of_entriesFrom {m : Message} {names seen : List String}
    (noError : ∀ entry ∈ m.entriesFrom seen names, entry.isOk = true) :
    ∀ name ∈ names, (m.plainField? name).isSome = true ∨ (m.oneofOf? name).isSome = true := by
  induction names generalizing seen with
  | nil => exact fun name isName => nomatch isName
  | cons name rest ih =>
    rw [entriesFrom] at noError
    rw [List.forall_mem_cons]
    cases plain : m.plainField? name with
    | some f =>
      simp only [plain, List.forall_mem_cons] at noError
      exact ⟨.inl rfl, ih noError.2⟩
    | none =>
      cases ofOneof : m.oneofOf? name with
      | none =>
        simp only [plain, ofOneof, List.forall_mem_cons] at noError
        cases noError.1
      | some o =>
        simp only [plain, ofOneof] at noError
        refine ⟨.inr rfl, ?_⟩
        split at noError
        · exact ih noError
        · exact ih (List.forall_mem_cons.mp noError).2

theorem ok_mem_entriesFrom {m : Message} {names seen : List String} {member : Member} :
    .ok member ∈ m.entriesFrom seen names ↔ member ∈ m.membersOf seen names := by
  induction names generalizing seen with
  | nil => simp [entriesFrom, membersOf]
  | cons name rest ih =>
    rw [entriesFrom, membersOf]
    cases m.plainField? name with
    | some f => simp [ih]
    | none =>
      cases m.oneofOf? name with
      | none => simp [ih]
      | some o =>
        simp only []
        split
        · exact ih
        · simp [ih]

theorem Complete.entries_eq {m : Message} (complete : m.Complete) : m.entries = m.members.map .ok :=
  entriesFrom_eq complete

theorem mem_membersOf {m : Message} {member : Member} {seen names : List String}
    (found : member ∈ m.membersOf seen names) :
    (∃ f ∈ m.fields, member = .field f) ∨ ∃ o ∈ m.oneofs, member = .oneof o := by
  induction names generalizing seen with
  | nil => cases found
  | cons name rest ih =>
    rw [membersOf] at found
    split at found
    · rename_i f isField
      rcases List.mem_cons.mp found with rfl | found
      · exact .inl ⟨f, List.mem_reverse.mp (List.mem_of_find?_eq_some isField), rfl⟩
      · exact ih found
    · split at found
      · exact ih found
      · rename_i o isOneof
        split at found
        · exact ih found
        · rcases List.mem_cons.mp found with rfl | found
          · exact .inr ⟨o, List.mem_reverse.mp (List.mem_of_find?_eq_some isOneof), rfl⟩
          · exact ih found

theorem mem_members {m : Message} {member : Member} (found : member ∈ m.members) :
    (∃ f ∈ m.fields, member = .field f) ∨ ∃ o ∈ m.oneofs, member = .oneof o :=
  mem_membersOf found

def memberNames (m : Message) : List String := m.members.map (·.name)

theorem name_of_membersOf {m : Message} {names seen : List String} {member : Member}
    (found : member ∈ m.membersOf seen names) :
    member.name ∈ names ∨ ∃ o ∈ m.oneofs, o.name ∉ seen ∧ o.name = member.name := by
  induction names generalizing seen with
  | nil => cases found
  | cons name rest ih =>
    have later {seen : List String} (found : member ∈ m.membersOf seen rest) :
        member.name ∈ name :: rest ∨ ∃ o ∈ m.oneofs, o.name ∉ seen ∧ o.name = member.name :=
      (ih found).imp_left (List.mem_cons_of_mem name)
    rw [membersOf] at found
    split at found
    · rename_i f isField
      rcases List.mem_cons.mp found with rfl | found
      · have named : f.name = name := by simpa using List.find?_some isField
        exact .inl (named ▸ List.mem_cons_self)
      · exact later found
    · split at found
      · exact later found
      · rename_i o isOneof
        split at found
        · exact later found
        · rename_i new
          rcases List.mem_cons.mp found with rfl | found
          · have declared : o ∈ m.oneofs := List.mem_reverse.mp (List.mem_of_find?_eq_some isOneof)
            exact .inr ⟨o, declared, by simpa using new, rfl⟩
          · refine (later found).imp_right fun ⟨other, isOther, unseen, named⟩ => ?_
            exact ⟨other, isOther, fun isSeen => unseen (List.mem_cons_of_mem _ isSeen), named⟩

/-- `seen` keeps a oneof from being taken twice, and no oneof is called like a field. -/
theorem membersOf_names_nodup {m : Message} {names seen : List String} (distinct : names.Nodup)
    (apart : ∀ o ∈ m.oneofs, o.name ∉ names) : ((m.membersOf seen names).map (·.name)).Nodup := by
  induction names generalizing seen with
  | nil => exact List.nodup_nil
  | cons name rest ih =>
    rw [List.nodup_cons] at distinct
    have others : ∀ o ∈ m.oneofs, o.name ∉ rest := fun o isOneof inRest =>
      apart o isOneof (List.mem_cons_of_mem _ inRest)
    rw [membersOf]
    split
    · rename_i f isField
      have named : f.name = name := by simpa using List.find?_some isField
      rw [List.map_cons, List.nodup_cons]
      refine ⟨fun again => ?_, ih distinct.2 others⟩
      obtain ⟨member, found, same⟩ := List.mem_map.mp again
      have same : member.name = name := same.trans named
      rcases name_of_membersOf found with inRest | ⟨o, isOneof, _, ofOneof⟩
      · exact distinct.1 (same ▸ inRest)
      · exact apart o isOneof (ofOneof.trans same ▸ List.mem_cons_self)
    · split
      · exact ih distinct.2 others
      · rename_i o isOneof
        split
        · exact ih distinct.2 others
        · rw [List.map_cons, List.nodup_cons]
          refine ⟨fun again => ?_, ih distinct.2 others⟩
          obtain ⟨member, found, same⟩ := List.mem_map.mp again
          have same : member.name = o.name := same
          rcases name_of_membersOf found with inRest | ⟨other, _, unseen, ofOther⟩
          · have declared : o ∈ m.oneofs := List.mem_reverse.mp (List.mem_of_find?_eq_some isOneof)
            exact others o declared (same ▸ inRest)
          · exact unseen (ofOther.trans same ▸ List.mem_cons_self)

theorem field_of_member {m : Message} {f : Field} (found : .field f ∈ m.members) : f ∈ m.allFields := by
  rcases mem_members found with ⟨_, isField, same⟩ | ⟨_, _, same⟩
  · cases same
    exact mem_allFields.mpr (.inl isField)
  · cases same

theorem field_of_oneof {m : Message} {o : Oneof} (isOneof : o ∈ m.oneofs) {f : Field}
    (isField : f ∈ o.fields) : f ∈ m.allFields := mem_allFields.mpr (.inr ⟨o, isOneof, isField⟩)

end Message

def FileUnit.fieldRefs (unit : FileUnit) : List TypeRef := unit.allMessages.flatMap (·.fieldRefs)

def FileUnit.methodRefs (unit : FileUnit) : List TypeRef :=
  (unit.services.flatMap (·.methods)).flatMap fun method => [method.input, method.output]

theorem FileUnit.mem_methodRefs {unit : FileUnit} {s : Service} (isService : s ∈ unit.services)
    {m : Method} (isMethod : m ∈ s.methods) :
    m.input ∈ unit.methodRefs ∧ m.output ∈ unit.methodRefs := by
  have inUnit : m ∈ unit.services.flatMap (·.methods) := List.mem_flatMap.mpr ⟨s, isService, isMethod⟩
  exact ⟨List.mem_flatMap.mpr ⟨m, inUnit, by simp⟩, List.mem_flatMap.mpr ⟨m, inUnit, by simp⟩⟩

def FileUnit.refs (unit : FileUnit) : List TypeRef :=
  unit.fieldRefs ++
    (unit.services.flatMap (·.methods)).flatMap fun method => [method.input, method.output]

end ProtoBindings.Schema
