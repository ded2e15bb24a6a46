import ProtoBindings.Proofs.Resolver.Build

namespace ProtoBindings.Resolver

open Schema (EnumType Field FileUnit Message)

/-- Where both tables have a symbol for a name, it is the same one. -/
def SymbolTable.Agree (t u : SymbolTable) : Prop :=
  ∀ name first second, t.find? name = some first → u.find? name = some second → first = second

def SymbolTable.Share (t u : SymbolTable) (symbols : List Symbol) : Prop :=
  ∀ s ∈ symbols, s ∈ t.newestFirst ∧ s ∈ u.newestFirst

variable {room : Room} {t u : SymbolTable}

theorem SymbolTable.Share.of_subset {symbols fewer : List Symbol} (share : t.Share u symbols)
    (subset : fewer ⊆ symbols) : t.Share u fewer := fun s member => share s (subset member)

theorem resolve_agree (agree : t.Agree u) {typeName context context' : String}
    {first second : Symbol}
    (inFirst : t.resolve typeName context = .ok first)
    (inSecond : u.resolve typeName context' = .ok second) : first = second :=
  agree _ _ _ (resolve_eq_ok inFirst) (resolve_eq_ok inSecond)

/-- The induction is on how deep entries are followed: a key or a value is built one level down. -/
theorem buildFieldTo_agree (agree : t.Agree u) {depth : Nat} {field : Descriptor.Field}
    {context context' : String} {oneof : Option String} {first second : Field}
    (inFirst : buildFieldTo t depth field context oneof = .ok first)
    (inSecond : buildFieldTo u depth field context' oneof = .ok second) : first = second := by
  induction depth generalizing field context context' oneof first second with
  | zero => cases inFirst
  | succ depth ih =>
    rcases buildFieldTo_eq_ok inFirst with ⟨type, kind⟩ | ⟨s, names, found, single⟩ |
      ⟨s, entry, keyField, valueField, at', key, value, names, found, isEntry, isKey, isValue, keyBuilt,
        valueBuilt⟩
    · rcases buildFieldTo_eq_ok inSecond with ⟨type', kind'⟩ | ⟨_, names', _, _⟩ |
        ⟨_, _, _, _, _, _, _, names', _, _, _, _, _, _⟩
      · rw [kind] at kind'
        cases kind'
        rfl
      · exact absurd kind (names' type)
      · exact absurd kind (names' type)
    · rcases buildFieldTo_eq_ok inSecond with ⟨type', kind'⟩ | ⟨s', _, found', _⟩ |
        ⟨s', _, _, _, _, _, _, _, found', isEntry', _, _, _, _⟩
      · exact absurd kind' (names type')
      · rw [agree _ _ _ found found']
      · rw [← agree _ _ _ found found', single] at isEntry'
        cases isEntry'
    · rcases buildFieldTo_eq_ok inSecond with ⟨type', kind'⟩ | ⟨s', _, found', single'⟩ |
        ⟨s', entry', keyField', valueField', _, key', value', _, found', isEntry', isKey', isValue',
          keyBuilt', valueBuilt'⟩
      · exact absurd kind' (names type')
      · rw [← agree _ _ _ found found', isEntry] at single'
        cases single'
      · obtain rfl := agree _ _ _ found found'
        obtain rfl : entry = entry' := by
          rw [isEntry] at isEntry'
          exact Option.some.inj isEntry'
        obtain rfl : keyField = keyField' := Except.ok.inj (isKey.symm.trans isKey')
        obtain rfl : valueField = valueField' := Except.ok.inj (isValue.symm.trans isValue')
        rw [ih keyBuilt keyBuilt', ih valueBuilt valueBuilt']

theorem placeField_agree (agree : t.Agree u) {depth : Nat} {message : Descriptor.Message} {fullName : String}
    {field : Descriptor.Field} {first second : PlacedField}
    (inFirst : placeField depth t message fullName field = .ok first)
    (inSecond : placeField depth u message fullName field = .ok second) : first = second := by
  simp only [placeField, Result.bind_eq_ok, Result.pure_eq_ok] at inFirst inSecond
  obtain ⟨oneof, declared, built, isBuilt, rfl⟩ := inFirst
  obtain ⟨oneof', declared', built', isBuilt', rfl⟩ := inSecond
  obtain rfl : oneof = oneof' := Except.ok.inj (declared.symm.trans declared')
  rw [buildFieldTo_agree agree isBuilt isBuilt']

theorem declaredRef_agree (agree : t.Agree u) {file : Descriptor.File} {path : List String}
    {s : Symbol} {symbols : List Symbol} (share : t.Share u symbols) (member : s ∈ symbols)
    (isRef : s.ref = refAt file path) : declaredRef t file path = declaredRef u file path := by
  obtain ⟨inFirst, inSecond⟩ := share s member
  obtain ⟨first, found⟩ := SymbolTable.find_isSome inFirst
  obtain ⟨second, found'⟩ := SymbolTable.find_isSome inSecond
  rw [isRef] at found found'
  rw [declaredRef, declaredRef, found, found', agree _ _ _ found found']

theorem buildEnum_agree (agree : t.Agree u) {file : Descriptor.File} {scope : List String}
    {enums : List Descriptor.Enum} (share : t.Share u (enumSymbols file scope enums)) :
    enums.mapM (buildEnum t file scope) = enums.mapM (buildEnum u file scope) := by
  refine Result.mapM_congr fun e member => ?_
  have declared : (⟨refAt file (scope ++ [e.name]), .enum⟩ : Symbol) ∈ enumSymbols file scope enums :=
    List.mem_map_of_mem member
  rw [buildEnum, buildEnum, declaredRef_agree agree share declared rfl]

mutual

theorem buildMessage_agree (agree : t.Agree u) {file : Descriptor.File} {scope : List String} :
    ∀ {message : Descriptor.Message} {first second : Message},
      t.Share u (messageSymbols file scope message) →
      buildMessage room t file scope message = .ok first →
      buildMessage room u file scope message = .ok second → first = second
  | ⟨name, fields, oneofs, messages, enums, isMapEntry⟩, first, second, share, inFirst, inSecond => by
    rw [messageSymbols] at share
    simp only [buildMessage, Result.bind_eq_ok, Result.pure_eq_ok] at inFirst inSecond
    obtain ⟨ref, isRef, placed, places, built, isBuilt, nested, inner, es, isEnums, rfl⟩ := inFirst
    obtain ⟨ref', isRef', placed', places', built', isBuilt', nested', inner', es', isEnums', rfl⟩ :=
      inSecond
    obtain rfl := Result.mapM_agree (fun _ _ _ => placeField_agree agree) places places'
    obtain rfl : built = built' := Except.ok.inj (isBuilt.symm.trans isBuilt')
    have sameNested := buildMessages_agree agree
      (share.of_subset fun _ member => by simp [member]) inner inner'
    have sameEnums := buildEnum_agree agree (share.of_subset (List.subset_append_right _ _))
    have sameRef := declaredRef_agree agree share (List.mem_append_left _ List.mem_cons_self) rfl
    obtain rfl : es = es' := Except.ok.inj (isEnums.symm.trans (sameEnums.trans isEnums'))
    obtain rfl : ref = ref' := Except.ok.inj (isRef.symm.trans (sameRef.trans isRef'))
    rw [sameNested]

theorem buildMessages_agree (agree : t.Agree u) {file : Descriptor.File} {scope : List String} :
    ∀ {messages : List Descriptor.Message} {first second : List Message},
      t.Share u (messagesSymbols file scope messages) →
      buildMessages room t file scope messages = .ok first →
      buildMessages room u file scope messages = .ok second → first = second
  | [], first, second, _, inFirst, inSecond => by
    rw [buildMessages] at inFirst inSecond
    cases inFirst
    cases inSecond
    rfl
  | message :: rest, first, second, share, inFirst, inSecond => by
    rw [messagesSymbols] at share
    rw [buildMessages] at inFirst inSecond
    have restShare := share.of_subset (List.subset_append_right _ _)
    split at inFirst
    · rename_i isEntry
      rw [if_pos isEntry] at inSecond
      exact buildMessages_agree agree restShare inFirst inSecond
    · rename_i notEntry
      rw [if_neg notEntry] at inSecond
      simp only [Result.bind_eq_ok, Result.pure_eq_ok] at inFirst inSecond
      obtain ⟨one, isBuilt, others, restBuilt, rfl⟩ := inFirst
      obtain ⟨one', isBuilt', others', restBuilt', rfl⟩ := inSecond
      rw [buildMessage_agree agree (share.of_subset (List.subset_append_left _ _)) isBuilt isBuilt',
        buildMessages_agree agree restShare restBuilt restBuilt']

end

theorem buildService_agree (agree : t.Agree u) {package : String} {service : Descriptor.Service}
    {first second : Schema.Service} (inFirst : buildService t package service = .ok first)
    (inSecond : buildService u package service = .ok second) : first = second := by
  simp only [buildService, Result.bind_eq_ok, Result.pure_eq_ok] at inFirst inSecond
  obtain ⟨methods, walk, rfl⟩ := inFirst
  obtain ⟨methods', walk', rfl⟩ := inSecond
  have same : methods = methods' := by
    refine Result.mapM_agree (fun method built built' inFirst inSecond => ?_) walk walk'
    simp only [buildMethod, Result.bind_eq_ok, Result.pure_eq_ok] at inFirst inSecond
    obtain ⟨input, isInput, output, isOutput, rfl⟩ := inFirst
    obtain ⟨input', isInput', output', isOutput', rfl⟩ := inSecond
    rw [resolve_agree agree isInput isInput', resolve_agree agree isOutput isOutput']
  rw [same]

theorem buildFile_agree (agree : t.Agree u) {file : Descriptor.File} {first second : FileUnit}
    (share : t.Share u (fileSymbols file)) (inFirst : buildFile room t file = .ok first)
    (inSecond : buildFile room u file = .ok second) : first = second := by
  simp only [buildFile, Result.bind_eq_ok, Result.pure_eq_ok] at inFirst inSecond
  obtain ⟨messages, isBuilt, enums, isEnums, services, walk, rfl⟩ := inFirst
  obtain ⟨messages', isBuilt', enums', isEnums', services', walk', rfl⟩ := inSecond
  have sameMessages := buildMessages_agree agree
    (share.of_subset (List.subset_append_left _ _)) isBuilt isBuilt'
  have sameEnums := buildEnum_agree agree (share.of_subset (List.subset_append_right _ _))
  have sameServices := Result.mapM_agree (fun _ _ _ => buildService_agree agree) walk walk'
  obtain rfl : enums = enums' := Except.ok.inj (isEnums.symm.trans (sameEnums.trans isEnums'))
  rw [sameMessages, sameServices]

structure Distinct (files : List Descriptor.File) : Prop where
  fileNames : (files.map (·.name)).Nodup
  fullNames : ((files.flatMap fileSymbols).map (·.ref.fullName)).Nodup

section Distinct

variable {files fs gs : List Descriptor.File} {first second : Resolver}

theorem Distinct.symbol_eq (distinct : Distinct files) {f g : Descriptor.File} (hf : f ∈ files)
    (hg : g ∈ files) {s s' : Symbol} (inFirst : s ∈ fileSymbols f) (inSecond : s' ∈ fileSymbols g)
    (same : s.ref.fullName = s'.ref.fullName) : s = s' :=
  List.inj_on_of_nodup_map distinct.fullNames (List.mem_flatMap.mpr ⟨f, hf, inFirst⟩)
    (List.mem_flatMap.mpr ⟨g, hg, inSecond⟩) same

theorem Distinct.tables_agree (distinct : Distinct files) (fromFirst : fs ⊆ files)
    (fromSecond : gs ⊆ files) :
    (SymbolTable.ofFiles fs).Agree (.ofFiles gs) := by
  intro name s s' found found'
  obtain ⟨member, named⟩ := SymbolTable.mem_of_find found
  obtain ⟨member', named'⟩ := SymbolTable.mem_of_find found'
  obtain ⟨f, isFile, declared⟩ := SymbolTable.mem_ofFiles.mp member
  obtain ⟨g, isFile', declared'⟩ := SymbolTable.mem_ofFiles.mp member'
  exact distinct.symbol_eq (fromFirst isFile) (fromSecond isFile') declared declared'
    (named.trans named'.symm)

theorem Distinct.unit_eq (distinct : Distinct files) (state : After fs first)
    (state' : After gs second) (fromFirst : fs ⊆ files) (fromSecond : gs ⊆ files)
    {unit unit' : FileUnit} (member : unit ∈ first.files) (member' : unit' ∈ second.files)
    (same : unit.name = unit'.name) : unit = unit' := by
  obtain ⟨before, f, after, rfl, built⟩ := state.built unit member
  obtain ⟨before', g, after', rfl, built'⟩ := state'.built unit' member'
  obtain rfl : f = g := by
    rw [buildFile_name built, buildFile_name built'] at same
    exact file_eq_of_name distinct.fileNames (fromFirst (by simp)) (fromSecond (by simp)) same
  refine buildFile_agree (distinct.tables_agree ?_ ?_) ?_ built built'
  · exact fun file member => fromFirst (by simp at member ⊢; tauto)
  · exact fun file member => fromSecond (by simp at member ⊢; tauto)
  · intro s declared
    exact ⟨SymbolTable.mem_ofFiles.mpr ⟨f, by simp, declared⟩,
      SymbolTable.mem_ofFiles.mpr ⟨f, by simp, declared⟩⟩

theorem Distinct.find_eq (distinct : Distinct fs) (drawn : gs ⊆ fs) (state : After fs first)
    (state' : After gs second) {g : Descriptor.File} (member : g ∈ gs) :
    ∃ unit ∈ second.files,
      first.find? g.name = some unit ∧ second.find? g.name = some unit ∧ unit.name = g.name := by
  obtain ⟨unit, isUnit, found, named⟩ := state.find (drawn member)
  obtain ⟨unit', isUnit', found', named'⟩ := state'.find member
  obtain rfl := distinct.unit_eq state state' (fun _ => id) drawn isUnit isUnit'
    (named.trans named'.symm)
  exact ⟨unit, isUnit', found, found', named⟩

end Distinct

end ProtoBindings.Resolver
