import ProtoBindings.Mapping.Basic
import ProtoBindings.Proofs.Resolver.Unit

namespace ProtoBindings.Resolver

open Descriptor (Node)
open Mapping (EnumIndex)
open Schema (ElementType EnumType Field FileUnit Message Oneof)

/-- How a field may use map entries: it is of no type that is declared in one, and if it is of an entry,
    then it is repeated, and stands neither in a real oneof nor in an entry. -/
structure UsesEntries (files : List Descriptor.File) (n : Node) (field : Descriptor.Field) : Prop where
  outside : ∀ g ∈ files, ∀ t ∈ g.nodes, (t.symbol g).ref.fullName = typeNameOf field →
    t.inEntry = false
  ofMap : ∀ g ∈ files, ∀ t ∈ g.nodes, (t.symbol g).ref.fullName = typeNameOf field →
    t.message.isMapEntry = true →
    field.label = .repeated ∧ realOneof? n.message field = none ∧ n.message.isMapEntry = false
  enums : ∀ g ∈ files, ∀ t ∈ g.nodes, ∀ d ∈ t.message.enums,
    (t.enumSymbol g d).ref.fullName = typeNameOf field → t.isHidden = false

instance (files : List Descriptor.File) (n : Node) (field : Descriptor.Field) :
    Decidable (UsesEntries files n field) :=
  decidable_of_iff
    ((∀ g ∈ files, ∀ t ∈ g.nodes, (t.symbol g).ref.fullName = typeNameOf field → t.inEntry = false) ∧
      (∀ g ∈ files, ∀ t ∈ g.nodes, (t.symbol g).ref.fullName = typeNameOf field →
        t.message.isMapEntry = true →
        field.label = .repeated ∧ realOneof? n.message field = none ∧ n.message.isMapEntry = false) ∧
      ∀ g ∈ files, ∀ t ∈ g.nodes, ∀ d ∈ t.message.enums,
        (t.enumSymbol g d).ref.fullName = typeNameOf field → t.isHidden = false)
    ⟨fun ⟨outside, ofMap, enums⟩ => ⟨outside, ofMap, enums⟩,
      fun ⟨outside, ofMap, enums⟩ => ⟨outside, ofMap, enums⟩⟩

def enumNames (files : List Descriptor.File) : List String :=
  (files.flatMap fun file => file.visibleEnums.map (file, ·)).map fun (file, scope, d) =>
    (refAt file (scope ++ [d.name])).fullName

/-- Files whose types can be referred to from generated code: names tell files and enums apart, and
    fields outside of entries and of entries themselves use entries as they may. -/
structure Referable (files : List Descriptor.File) : Prop where
  fileNames : (files.map (·.name)).Nodup
  enumNames : (enumNames files).Nodup
  entries : ∀ file ∈ files, ∀ n ∈ file.nodes, n.inEntry = false → ∀ field ∈ n.message.fields,
    NamesType field → UsesEntries files n field

/-- A type that some unit declares. The index of all enums has this enum for its name. -/
inductive Grounded (resolver : Resolver) : ElementType → Prop
  | scalar (type) : Grounded resolver (.scalar type)
  | message (unit : FileUnit) (m : Message) : unit ∈ resolver.files → m ∈ unit.allMessages →
      unit.name = m.ref.file → unit.package = m.ref.package → Grounded resolver (.message m.ref)
  | enum (unit : FileUnit) (e : EnumType) : unit ∈ resolver.files → e ∈ unit.allEnums →
      unit.name = e.ref.file → unit.package = e.ref.package →
      (∀ other, (EnumIndex.ofUnits resolver.files).find? e.ref.fullName = some other → other = e) →
      Grounded resolver (.enum e.ref)

variable {files before after : List Descriptor.File} {file : Descriptor.File} {resolver : Resolver}

theorem split_unique (distinct : (files.map (·.name)).Nodup) (split : files = before ++ file :: after)
    {earlier later : List Descriptor.File} (split' : files = earlier ++ file :: later) :
    before = earlier ∧ after = later := by
  have unique : files.Nodup := List.Nodup.of_map _ distinct
  rw [split, List.nodup_middle, List.nodup_cons, List.mem_append, not_or] at unique
  obtain ⟨⟨notBefore, notAfter⟩, _⟩ := unique
  have same := (List.append_cons_inj_of_notMem notBefore notAfter).mp (split.symm.trans split')
  exact ⟨same.1, same.2.2⟩

theorem file_of_symbol {g : Descriptor.File} {s : Symbol} (declared : s ∈ fileSymbols g) :
    s.ref.file = g.name := by
  obtain ⟨path, atPath⟩ := Descriptor.File.symbol_file declared
  rw [atPath]
  rfl

theorem found_at_home (distinct : (files.map (·.name)).Nodup) (split : files = before ++ file :: after)
    {name : String} {s : Symbol} (found : (SymbolTable.ofFiles (before ++ [file])).find? name = some s)
    {g : Descriptor.File} (declared : s ∈ fileSymbols g) {earlier later : List Descriptor.File}
    (split' : files = earlier ++ g :: later) :
    (SymbolTable.ofFiles (earlier ++ [g])).find? name = some s := by
  obtain ⟨inTable, _⟩ := SymbolTable.mem_of_find found
  obtain ⟨h, here, declared'⟩ := SymbolTable.mem_ofFiles.mp inTable
  obtain ⟨first, second, parts⟩ := List.append_of_mem here
  have whole : files = first ++ h :: (second ++ after) := by
    rw [split, ← List.singleton_append, ← List.append_assoc, parts]
    simp
  have sameFile {f : Descriptor.File} (isFile : f ∈ files) (declares : s ∈ fileSymbols f) : f = g :=
    file_eq_of_name distinct isFile (by simp [split'])
      ((file_of_symbol declares).symm.trans (file_of_symbol declared))
  obtain rfl : h = g := sameFile (by simp [whole]) declared'
  obtain ⟨rfl, rfl⟩ := split_unique distinct split' whole
  rw [parts, ← List.singleton_append, ← List.append_assoc] at found
  refine SymbolTable.find_ofFiles_append found fun f isLater declares => ?_
  obtain rfl : f = h := sameFile (by simp [split', isLater]) declares
  have unique : files.Nodup := List.Nodup.of_map _ distinct
  rw [split', List.nodup_middle, List.nodup_cons, List.mem_append, not_or] at unique
  exact unique.1.2 (List.mem_append_left _ isLater)

theorem entry_eq {t : Node} {g : Descriptor.File} {label : Descriptor.Label}
    {entry : Descriptor.Message} (isEntry : Symbol.entry? (t.symbol g) label = some entry) :
    entry = t.message :=
  (Declaration.message.inj (Symbol.entry_eq_some.mp isEntry).1).symm

theorem entry_node (split : files = before ++ file :: after) {name : String} {s : Symbol}
    (found : (SymbolTable.ofFiles (before ++ [file])).find? name = some s) {label : Descriptor.Label}
    {entry : Descriptor.Message} (isEntry : s.entry? label = some entry) :
    ∃ g ∈ files, ∃ t ∈ g.nodes, s = t.symbol g ∧ t.message.isMapEntry = true := by
  obtain ⟨g, isFile, declared⟩ := declared_of_found split found
  rcases Descriptor.File.mem_symbols.mp declared with ⟨t, isNode, rfl | ⟨d, _, rfl⟩⟩ | ⟨d, _, rfl⟩
  · refine ⟨g, isFile, t, isNode, rfl, ?_⟩
    simp only [Symbol.entry?, Node.symbol] at isEntry
    split at isEntry
    · rename_i repeated
      exact repeated.2
    · cases isEntry
  · cases isEntry
  · cases isEntry

theorem grounded_of_found (distinct : (files.map (·.name)).Nodup) (state : After files resolver)
    (split : files = before ++ file :: after) {name : String} {s : Symbol}
    (found : (SymbolTable.ofFiles (before ++ [file])).find? name = some s) {g : Descriptor.File}
    (isFile : g ∈ files) (declared : s ∈ fileSymbols g) {t : Node} (isNode : t ∈ g.nodes)
    (shown : t.isHidden = false) (isRef : s.ref = refAt g t.path) :
    Grounded resolver (.message s.ref) := by
  obtain ⟨unit, isUnit, _, earlier, later, split', built⟩ := state.unit_of_file distinct isFile
  have home := found_at_home distinct split found declared split'
  rw [← (SymbolTable.mem_of_find found).2] at home
  have inUnit : t ∈ g.nodes.filter (!·.isHidden) := List.mem_filter.mpr ⟨isNode, by simp [shown]⟩
  obtain ⟨m, isMessage, result⟩ := built.messages.exists_right inUnit
  obtain ⟨_, whole⟩ := buildMessage_eq_ok result
  have sameRef : m.ref = s.ref :=
    Except.ok.inj (whole.ref.symm.trans (declaredRef_of_found home isRef))
  rw [← sameRef]
  exact .message unit m isUnit isMessage (by rw [built.name, sameRef, isRef]; rfl)
    (by rw [built.package, sameRef, isRef]; rfl)

/-- A reference to a message that gets a class: it is neither an entry nor declared in one. -/
def HasClass (files : List Descriptor.File) (ref : Schema.TypeRef) : Prop :=
  ∃ g ∈ files, ∃ t ∈ g.nodes, t.isHidden = false ∧ ref = refAt g t.path

instance (files : List Descriptor.File) (ref : Schema.TypeRef) : Decidable (HasClass files ref) := by
  unfold HasClass
  infer_instance

theorem grounded_method (distinct : (files.map (·.name)).Nodup) (state : After files resolver)
    {unit : FileUnit} (isUnit : unit ∈ resolver.files) {ref : Schema.TypeRef}
    (member : ref ∈ unit.methodRefs) (hasClass : HasClass files ref) :
    Grounded resolver (.message ref) := by
  obtain ⟨g, isFile, t, isNode, shown, isRef⟩ := hasClass
  obtain ⟨before, file, after, split, built⟩ := state.unit isUnit
  obtain ⟨name, s, found, rfl⟩ := built.methodRef_found ref member
  obtain ⟨h, isOther, declared⟩ := declared_of_found split found
  have sameName : h.name = g.name := (file_of_symbol declared).symm.trans (congrArg (·.file) isRef)
  obtain rfl : h = g := file_eq_of_name distinct isOther isFile sameName
  exact grounded_of_found distinct state split found isFile declared isNode shown isRef

section Referable

variable (referable : Referable files) (state : After files resolver)
  (split : files = before ++ file :: after)
include referable state split

theorem Referable.grounded_message {name : String} {g : Descriptor.File} {t : Node}
    (found : (SymbolTable.ofFiles (before ++ [file])).find? name = some (t.symbol g))
    (isFile : g ∈ files) (isNode : t ∈ g.nodes) (shown : t.isHidden = false) :
    Grounded resolver (.message (t.symbol g).ref) := by
  have declared : t.symbol g ∈ fileSymbols g := Descriptor.File.mem_symbols.mpr (.inl ⟨t, isNode, .inl rfl⟩)
  exact grounded_of_found referable.fileNames state split found isFile declared isNode shown rfl

theorem Referable.grounded_enum {name : String} {g : Descriptor.File}
    (d : List String × Descriptor.Enum)
    (found : (SymbolTable.ofFiles (before ++ [file])).find? name =
      some ⟨refAt g (d.1 ++ [d.2.name]), .enum⟩)
    (isFile : g ∈ files) (visible : d ∈ g.visibleEnums) :
    Grounded resolver (.enum (refAt g (d.1 ++ [d.2.name]))) := by
  have declared := Descriptor.File.symbol_of_enum visible
  obtain ⟨unit, isUnit, _, earlier, later, split', built⟩ :=
    state.unit_of_file referable.fileNames isFile
  have home := found_at_home referable.fileNames split found declared split'
  rw [← (SymbolTable.mem_of_find found).2] at home
  obtain ⟨e, isEnum, made⟩ := built.allEnums.exists_right visible
  have sameRef : e.ref = refAt g (d.1 ++ [d.2.name]) := by
    obtain ⟨ref, isRef, rfl⟩ := buildEnum_eq_ok.mp made
    exact Except.ok.inj (isRef.symm.trans (declaredRef_of_found home rfl))
  rw [← sameRef]
  refine .enum unit e isUnit isEnum (by rw [built.name, sameRef]; rfl)
    (by rw [built.package, sameRef]; rfl) fun other indexed => ?_
  have isKnown := List.mem_reverse.mp (List.mem_of_find?_eq_some indexed)
  obtain ⟨unit', isUnit', member⟩ := List.mem_flatMap.mp isKnown
  obtain ⟨earlier', h, later', split'', built'⟩ := state.unit isUnit'
  obtain ⟨d', visible', made'⟩ := built'.allEnums.exists_left member
  have sameName : (refAt h (d'.1 ++ [d'.2.name])).fullName = (refAt g (d.1 ++ [d.2.name])).fullName := by
    rw [sameRef, EnumIndex.find?] at indexed
    have found := List.find?_some indexed
    obtain ⟨_, _, rfl⟩ := buildEnum_eq_ok.mp made'
    exact beq_iff_eq.mp found
  have inList {f : Descriptor.File} (member : f ∈ files) {x : List String × Descriptor.Enum}
      (shown : x ∈ f.visibleEnums) :
      (f, x) ∈ files.flatMap fun file => file.visibleEnums.map (file, ·) :=
    List.mem_flatMap.mpr ⟨f, member, List.mem_map_of_mem shown⟩
  have same := List.inj_on_of_nodup_map referable.enumNames
    (inList (by simp [split'']) visible') (inList isFile visible) sameName
  cases same
  obtain ⟨rfl, _⟩ := split_unique referable.fileNames split'' split'
  exact Except.ok.inj (made'.symm.trans made)

theorem Referable.grounded_named {f : Descriptor.File} (isFile : f ∈ files) {n : Node}
    (isNode : n ∈ f.nodes) (outside : n.inEntry = false) {field : Descriptor.Field}
    (isField : field ∈ n.message.fields) (names : NamesType field) {s : Symbol}
    (found : (SymbolTable.ofFiles (before ++ [file])).find? (typeNameOf field) = some s)
    (single : s.entry? field.label = none) : Grounded resolver s.element := by
  have uses := referable.entries f isFile n isNode outside field isField names
  obtain ⟨g, isOther, declared⟩ := declared_of_found split found
  have named := (SymbolTable.mem_of_find found).2
  rcases Descriptor.File.mem_symbols.mp declared with ⟨t, isTarget, rfl | ⟨d, isEnum, rfl⟩⟩ | ⟨d, isEnum, rfl⟩
  · have notEntry : t.message.isMapEntry = false := by
      refine Bool.eq_false_iff.mpr fun isEntry => ?_
      have repeated := (uses.ofMap g isOther t isTarget named isEntry).1
      simp [Symbol.entry?, Node.symbol, repeated, isEntry] at single
    have shown : t.isHidden = false := by
      rw [Node.isHidden, uses.outside g isOther t isTarget named, notEntry]
      rfl
    exact referable.grounded_message state split found isOther isTarget shown
  · have shown := uses.enums g isOther t isTarget d isEnum named
    refine referable.grounded_enum state split (t.path, d) found isOther ?_
    refine List.mem_append_right _ (List.mem_flatMap.mpr ⟨t, ?_, List.mem_map_of_mem isEnum⟩)
    exact List.mem_filter.mpr ⟨isTarget, by simp [shown]⟩
  · exact referable.grounded_enum state split ([], d) found isOther
      (List.mem_append_left _ (List.mem_map_of_mem isEnum))

/-- A key or a value: its field stands in an entry, so it is no map field. -/
theorem Referable.grounded_inEntry {g : Descriptor.File} (isFile : g ∈ files) {t : Node}
    (isNode : t ∈ g.nodes) (outside : t.inEntry = false) (isEntry : t.message.isMapEntry = true)
    {field : Descriptor.Field} (isField : field ∈ t.message.fields) {oneof : Option String}
    {depth : Nat} {f : Field}
    (built : FieldBuilt (.ofFiles (before ++ [file])) field oneof depth f) :
    Grounded resolver f.element := by
  cases built with
  | scalar type => exact .scalar type
  | named s names found single =>
    exact referable.grounded_named state split isFile isNode outside isField names found single
  | map s entry keyField valueField context key value names found isMap =>
    have uses := referable.entries g isFile t isNode outside field isField names
    obtain ⟨h, isOther, u, isTarget, rfl, ofEntry⟩ := entry_node split found isMap
    have named := (SymbolTable.mem_of_find found).2
    have notEntry := (uses.ofMap h isOther u isTarget named ofEntry).2.2
    rw [isEntry] at notEntry
    cases notEntry

theorem Referable.grounded_field {n : Node} (isNode : n ∈ file.nodes) (shown : n.isHidden = false)
    {field : Descriptor.Field} (isField : field ∈ n.message.fields) {oneof : Option String}
    {depth : Nat} {f : Field}
    (built : FieldBuilt (.ofFiles (before ++ [file])) field oneof depth f) :
    (∀ e ∈ f.elements, Grounded resolver e) ∧
      (realOneof? n.message field ≠ none → f.isMap = false) := by
  have isFile : file ∈ files := by simp [split]
  have outside : n.inEntry = false := (Bool.or_eq_false_iff.mp shown).1
  cases built with
  | scalar type =>
    refine ⟨fun e member => ?_, fun _ => rfl⟩
    rw [List.mem_singleton.mp member]
    exact .scalar type
  | named s names found single =>
    refine ⟨fun e member => ?_, fun _ => rfl⟩
    rw [List.mem_singleton.mp member]
    exact referable.grounded_named state split isFile isNode outside isField names found single
  | map s entry keyField valueField context key value names found isMap isKey isValue keyBuilt
      valueBuilt =>
    have uses := referable.entries file isFile n isNode outside field isField names
    obtain ⟨g, isOther, t, isTarget, rfl, ofEntry⟩ := entry_node split found isMap
    have named := (SymbolTable.mem_of_find found).2
    have ofMap := uses.ofMap g isOther t isTarget named ofEntry
    have inside := uses.outside g isOther t isTarget named
    have entryFields : entry = t.message := entry_eq isMap
    subst entryFields
    have grounded := @Referable.grounded_inEntry _ _ _ _ _ referable state split g isOther t isTarget
      inside ofEntry
    refine ⟨fun e member => ?_, fun inOneof => absurd ofMap.2.1 inOneof⟩
    rcases List.mem_cons.mp member with rfl | member
    · exact grounded (fieldNumbered_eq_ok isKey).1 (buildFieldTo_eq_ok keyBuilt)
    · rw [List.mem_singleton.mp member]
      exact grounded (fieldNumbered_eq_ok isValue).1 (buildFieldTo_eq_ok valueBuilt)

end Referable

theorem Referable.grounded (referable : Referable files) (state : After files resolver)
    {unit : FileUnit} (isUnit : unit ∈ resolver.files) {m : Message} (isMessage : m ∈ unit.allMessages) :
    (∀ f ∈ m.allFields, ∀ e ∈ f.elements, Grounded resolver e) ∧
      ∀ o ∈ m.oneofs, ∀ f ∈ o.fields, f.isMap = false := by
  obtain ⟨before, file, after, split, built⟩ := state.unit isUnit
  obtain ⟨n, isNode, shown, placed, whole⟩ := built.message isMessage
  constructor
  · intro f member
    obtain ⟨field, isField, oneof, fieldBuilt⟩ := whole.field member
    exact (referable.grounded_field state split isNode shown isField fieldBuilt).1
  · intro o isOneof f member
    obtain ⟨field, isField, inOneof, fieldBuilt⟩ := whole.oneofField isOneof member
    exact (referable.grounded_field state split isNode shown isField fieldBuilt).2 inOneof

theorem Referable.unit_eq (referable : Referable files) (state : After files resolver)
    {unit other : FileUnit} (isUnit : unit ∈ resolver.files) (isOther : other ∈ resolver.files)
    (same : unit.name = other.name) : unit = other := by
  obtain ⟨before, f, after, split, built⟩ := state.built unit isUnit
  obtain ⟨before', g, after', split', built'⟩ := state.built other isOther
  rw [buildFile_name built, buildFile_name built'] at same
  obtain rfl : f = g :=
    file_eq_of_name referable.fileNames (by simp [split]) (by simp [split']) same
  obtain ⟨rfl, rfl⟩ := split_unique referable.fileNames split split'
  rw [built] at built'
  exact Except.ok.inj built'

end ProtoBindings.Resolver
