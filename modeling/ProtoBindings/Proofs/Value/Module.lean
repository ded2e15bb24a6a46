import ProtoBindings.Proofs.Value.Definitions

namespace ProtoBindings.Value

open Code (Function)
open Schema (EnumType FileUnit Message)

structure ModuleBuilt (mapper : Mapper) (unit : FileUnit) (module : Module)
    (declarations : List (List Declaration)) (functions : List (List Function)) : Prop where
  declared : List.Forall₂ (fun m result => messageDeclarations mapper m = .ok result)
    unit.allMessages declarations
  converted : List.Forall₂ (fun m result => messageFunctions mapper m = .ok result)
    unit.allMessages functions
  enums : module.enums = unit.allEnums.map enumClass
  declarations : module.declarations = declarations.flatten
  tables : module.tables = unit.allEnums.map enumTables
  functions : module.functions = unit.allEnums.flatMap enumFunctions ++ functions.flatten
  parsers : module.parsers = unit.allMessages.map parserConstant
  ofEnums : unit.allEnums ≠ [] → { module := "enum" } ∈ module.imports
  ofClasses : unit.allMessages ≠ [] → { module := "dataclasses" } ∈ module.imports

theorem Module.ofUnit_eq_ok {mapper : Mapper} {unit : FileUnit} {module : Module}
    (result : Module.ofUnit mapper unit = .ok module) :
    ∃ declarations functions, ModuleBuilt mapper unit module declarations functions := by
  simp only [Module.ofUnit, Result.bind_eq_ok, Result.pure_eq_ok, Result.mapM_eq_ok] at result
  obtain ⟨declarations, declared, functions, converted, rfl⟩ := result
  refine ⟨declarations, functions, declared, converted, rfl, rfl, rfl, rfl, rfl, ?_, ?_⟩
  · intro present
    simp [imports, present]
  · intro present
    simp [imports, present]

section Names

variable {mapper : Mapper} {m : Message}

theorem messageDeclarations_names {declarations : List Declaration}
    (result : messageDeclarations mapper m = .ok declarations) :
    (∃ d ∈ declarations, d.name = m.ref.className) ∧ ∀ o ∈ m.oneofs,
      (∃ d ∈ declarations, d.name = oneofTypeName m o) ∧
        ∀ f ∈ o.fields, ∃ d ∈ declarations, d.name = Name.variantName (oneofTypeName m o) f.name := by
  obtain ⟨oneofs, c, rfl, walk, built⟩ := messageDeclarations_eq_ok result
  refine ⟨⟨_, List.mem_append_right _ (List.mem_singleton_self _), built.name⟩, fun o isOneof => ?_⟩
  obtain ⟨chunk, isChunk, found⟩ := walk.exists_right isOneof
  obtain ⟨variants, areVariants, rfl⟩ := oneofDeclarations_eq_ok found
  have inChunk {d : Declaration} (member : d ∈ variants.map .dataClass ++
      [.union (oneofTypeName m o) (variants.map (·.name))]) : d ∈ oneofs.flatten :=
    List.mem_flatten.mpr ⟨_, isChunk, member⟩
  constructor
  · have union := inChunk (List.mem_append_right _ (List.mem_singleton_self _))
    exact ⟨_, List.mem_append_left _ union, rfl⟩
  · intro f isField
    obtain ⟨d, isVariant, result⟩ := areVariants.exists_right isField
    have member := inChunk (List.mem_append_left _ (List.mem_map_of_mem isVariant))
    exact ⟨_, List.mem_append_left _ member, (variantClass_eq_ok result).1⟩

theorem messageFunctions_names {functions : List Function}
    (result : messageFunctions mapper m = .ok functions) :
    (∃ f ∈ functions, f.name = m.ref.readerName) ∧ (∃ f ∈ functions, f.name = m.ref.writerName) ∧
      ∀ o ∈ m.oneofs, (∃ f ∈ functions, f.name = oneofReaderName m o) ∧
        ∃ f ∈ functions, f.name = oneofWriterName m o := by
  obtain ⟨reader, readers, writer, writers, rfl, isReader, areReaders, isWriter, areWriters⟩ :=
    messageFunctions_eq_ok result
  refine ⟨⟨reader, by simp, messageReader_name isReader⟩, ⟨writer, by simp, messageWriter_name isWriter⟩,
    fun o isOneof => ?_⟩
  obtain ⟨f, isFunction, ofReader⟩ := areReaders.exists_right isOneof
  obtain ⟨g, isFunction', ofWriter⟩ := areWriters.exists_right isOneof
  exact ⟨⟨f, by simp [isFunction], oneofReader_name ofReader⟩,
    ⟨g, by simp [isFunction'], oneofWriter_name ofWriter⟩⟩

end Names

section Defines

variable {mapper : Mapper} {unit : FileUnit} {module : Module}
  {declarations : List (List Declaration)} {functions : List (List Function)}
  (built : ModuleBuilt mapper unit module declarations functions)

theorem Module.defines_declaration {d : Declaration} (member : d ∈ module.declarations) :
    d.name ∈ module.bodyItems.flatMap (·.defines) := by
  refine List.mem_flatMap.mpr ⟨d.item, ?_, by cases d <;> exact List.mem_singleton.mpr rfl⟩
  simp only [bodyItems, List.mem_append]
  exact .inl (.inl (.inr (List.mem_map_of_mem member)))

theorem Module.defines_function {f : Function} (member : f ∈ module.functions) :
    f.name ∈ module.bodyItems.flatMap (·.defines) := by
  refine List.mem_flatMap.mpr ⟨functionItem f, ?_, List.mem_singleton.mpr rfl⟩
  simp only [bodyItems, List.mem_append]
  exact .inr (List.mem_map_of_mem member)

include built

theorem ModuleBuilt.mem_declarations {m : Message} (isMessage : m ∈ unit.allMessages) :
    ∃ result, messageDeclarations mapper m = .ok result ∧ result ⊆ module.declarations := by
  obtain ⟨result, isResult, found⟩ := built.declared.exists_right isMessage
  refine ⟨result, found, fun d member => ?_⟩
  rw [built.declarations]
  exact List.mem_flatten.mpr ⟨result, isResult, member⟩

theorem ModuleBuilt.mem_functions {m : Message} (isMessage : m ∈ unit.allMessages) :
    ∃ result, messageFunctions mapper m = .ok result ∧ result ⊆ module.functions := by
  obtain ⟨result, isResult, found⟩ := built.converted.exists_right isMessage
  refine ⟨result, found, fun f member => ?_⟩
  rw [built.functions]
  exact List.mem_append_right _ (List.mem_flatten.mpr ⟨result, isResult, member⟩)

theorem ModuleBuilt.declaredBy {d : Declaration} (isDeclared : d ∈ module.declarations) :
    ∃ m ∈ unit.allMessages, DeclaredBy mapper m d := by
  rw [built.declarations] at isDeclared
  obtain ⟨result, isResult, inResult⟩ := List.mem_flatten.mp isDeclared
  obtain ⟨m, isMessage, found⟩ := built.declared.exists_left isResult
  exact ⟨m, isMessage, declaredBy_of_mem found inResult⟩

theorem ModuleBuilt.convertedBy {f : Function} (isFunction : f ∈ module.functions) :
    (∃ e ∈ unit.allEnums, f ∈ enumFunctions e) ∨ ∃ m ∈ unit.allMessages, ConvertedBy mapper m f := by
  rw [built.functions, List.mem_append, List.mem_flatMap] at isFunction
  refine isFunction.imp_right fun ofMessage => ?_
  obtain ⟨result, isResult, inResult⟩ := List.mem_flatten.mp ofMessage
  obtain ⟨m, isMessage, found⟩ := built.converted.exists_left isResult
  exact ⟨m, isMessage, convertedBy_of_mem found inResult⟩

variable {c : Context}

theorem ModuleBuilt.defines (all : module.bodyItems.flatMap (·.defines) ⊆ c.defined) {m : Message}
    (isMessage : m ∈ unit.allMessages) : c.Defines m := by
  obtain ⟨declared, found, isDeclared⟩ := built.mem_declarations isMessage
  obtain ⟨converted, found', isConverted⟩ := built.mem_functions isMessage
  have ofDeclaration {d : Declaration} (member : d ∈ declared) : d.name ∈ c.defined :=
    all (Module.defines_declaration (isDeclared member))
  have ofFunction {f : Function} (member : f ∈ converted) : f.name ∈ c.defined :=
    all (Module.defines_function (isConverted member))
  obtain ⟨className, oneofs⟩ := messageDeclarations_names found
  obtain ⟨reader, writer, oneofFunctions⟩ := messageFunctions_names found'
  constructor
  · obtain ⟨d, member, named⟩ := className
    exact named ▸ ofDeclaration member
  · obtain ⟨f, member, named⟩ := reader
    exact named ▸ ofFunction member
  · obtain ⟨f, member, named⟩ := writer
    exact named ▸ ofFunction member
  · intro o isOneof
    obtain ⟨d, member, named⟩ := (oneofs o isOneof).1
    exact named ▸ ofDeclaration member
  · intro o isOneof
    obtain ⟨f, member, named⟩ := (oneofFunctions o isOneof).1
    exact named ▸ ofFunction member
  · intro o isOneof
    obtain ⟨f, member, named⟩ := (oneofFunctions o isOneof).2
    exact named ▸ ofFunction member
  · intro o isOneof f isField
    obtain ⟨d, member, named⟩ := (oneofs o isOneof).2 f isField
    exact named ▸ ofDeclaration member

theorem ModuleBuilt.enum_class {e : EnumType} (isEnum : e ∈ unit.allEnums) :
    e.ref.className ∈ module.bodyItems.flatMap (·.defines) := by
  have ofClass : (enumClass e).item ∈ module.bodyItems := by
    simp only [Module.bodyItems, built.enums, List.mem_append, List.map_map]
    exact .inl (.inl (.inl (List.mem_map_of_mem isEnum)))
  exact List.mem_flatMap.mpr ⟨_, ofClass, List.mem_singleton.mpr rfl⟩

theorem ModuleBuilt.enum_members {e : EnumType} (isEnum : e ∈ unit.allEnums)
    (takes : (enumClass e).TakesNames) :
    ∀ member ∈ (enumClass e).members,
      (e.ref.className, member.name) ∈ (module.enums.map (·.item)).flatMap (·.members) := by
  intro member inClass
  rw [built.enums, List.map_map]
  refine List.mem_flatMap.mpr ⟨(enumClass e).item, List.mem_map_of_mem isEnum, ?_⟩
  rw [EnumClass.item, takes.ownMembers_eq]
  exact List.mem_map.mpr ⟨member, inClass, rfl⟩

theorem ModuleBuilt.definesEnum (all : module.bodyItems.flatMap (·.defines) ⊆ c.defined)
    (members : module.bodyItems.flatMap (·.members) ⊆ c.members) {e : EnumType}
    (isEnum : e ∈ unit.allEnums) (takes : (enumClass e).TakesNames) : c.DefinesEnum e := by
  have ofTables : (enumTables e).item ∈ module.bodyItems := by
    simp only [Module.bodyItems, built.tables, List.mem_append, List.map_map]
    exact .inl (.inr (List.mem_map_of_mem isEnum))
  constructor
  · exact all (built.enum_class isEnum)
  · intro member inClass
    have ofEnums := built.enum_members isEnum takes member inClass
    refine members ?_
    rw [Module.bodyItems, List.append_assoc, List.append_assoc, List.flatMap_append]
    exact List.mem_append_left _ ofEnums
  · exact members (List.mem_flatMap.mpr ⟨_, ofTables, List.mem_singleton.mpr rfl⟩)
  · exact all (List.mem_flatMap.mpr ⟨_, ofTables, List.mem_cons_of_mem _ (List.mem_singleton.mpr rfl)⟩)

theorem ModuleBuilt.enum_functions {e : EnumType} (isEnum : e ∈ unit.allEnums) :
    enumReader e ∈ module.functions ∧ enumWriter e ∈ module.functions := by
  rw [built.functions]
  have inEnums {f : Function} (isFunction : f ∈ enumFunctions e) :
      f ∈ unit.allEnums.flatMap enumFunctions := List.mem_flatMap.mpr ⟨e, isEnum, isFunction⟩
  exact ⟨List.mem_append_left _ (inEnums (by simp [enumFunctions])),
    List.mem_append_left _ (inEnums (by simp [enumFunctions]))⟩

end Defines

theorem Module.body_definitions (module : Module) :
    module.bodyItems.flatMap (·.defines) ⊆ module.definitions := by
  rw [definitions, items, List.flatMap_append]
  exact List.subset_append_left _ _

theorem Module.body_defined (module : Module) (c : Context) :
    module.bodyItems.flatMap (·.defines) ⊆ (c.extend module.items).defined :=
  List.subset_append_of_subset_right _ module.body_definitions

theorem Module.body_members (module : Module) (c : Context) :
    module.bodyItems.flatMap (·.members) ⊆ (c.extend module.items).members := by
  refine List.subset_append_of_subset_right _ ?_
  rw [Module.items, List.flatMap_append]
  exact List.subset_append_left _ _

section SelfContained

variable {mapper : Mapper} {unit : FileUnit} {module : Module}
  {declarations : List (List Declaration)} {functions : List (List Function)} {c : Context}
  (built : ModuleBuilt mapper unit module declarations functions)
  (imported : c.imports = module.imports)
include built imported

theorem ModuleBuilt.declarations_imported {result : List Declaration} (member : result ∈ declarations) :
    result.flatMap (·.imports) ⊆ c.imports := by
  intro i isImport
  obtain ⟨d, isDeclared, ofDeclaration⟩ := List.mem_flatMap.mp isImport
  have inModule : i ∈ module.declarations.flatMap (·.imports) := by
    rw [built.declarations]
    exact List.mem_flatMap.mpr ⟨d, List.mem_flatten.mpr ⟨result, member, isDeclared⟩, ofDeclaration⟩
  simp [imported, Module.imports, inModule]

theorem ModuleBuilt.functions_imported {result : List Function} (member : result ∈ functions) :
    result.flatMap (·.imports) ⊆ c.imports := by
  intro i isImport
  obtain ⟨f, isFunction, ofFunction⟩ := List.mem_flatMap.mp isImport
  have inModule : i ∈ module.functions.flatMap (·.imports) := by
    rw [built.functions]
    refine List.mem_flatMap.mpr ⟨f, List.mem_append_right _ ?_, ofFunction⟩
    exact List.mem_flatten.mpr ⟨result, member, isFunction⟩
  simp [imported, Module.imports, inModule]

theorem ModuleBuilt.tables_imported {e : EnumType} (isEnum : e ∈ unit.allEnums) :
    (hostClass e.ref).imports ⊆ c.imports := by
  intro i isImport
  have inModule : i ∈ module.tables.flatMap (·.imports) := by
    rw [built.tables]
    exact List.mem_flatMap.mpr ⟨enumTables e, List.mem_map_of_mem isEnum, isImport⟩
  simp [imported, Module.imports, inModule]

theorem ModuleBuilt.parsers_imported {m : Message} (isMessage : m ∈ unit.allMessages) :
    (parserConstant m).imports ⊆ c.imports := by
  intro i isImport
  have inModule : i ∈ module.parsers.flatMap (·.imports) := by
    rw [built.parsers]
    exact List.mem_flatMap.mpr ⟨parserConstant m, List.mem_map_of_mem isMessage, isImport⟩
  simp [imported, Module.imports, inModule]

theorem ModuleBuilt.parsers_resolve {m : Message} (isMessage : m ∈ unit.allMessages) :
    ∀ p ∈ (parserConstant m).item.evaluated ++ (parserConstant m).item.deferred,
      (c.extend module.bodyItems).Resolves p := by
  have defines := @ModuleBuilt.defines _ _ _ _ _ built (c.extend module.bodyItems)
    (List.subset_append_right _ _) m isMessage
  exact parserConstant_resolves defines (built.parsers_imported imported isMessage)

variable (served : ∀ m ∈ unit.allMessages, ∀ f ∈ m.allFields, ∀ e ∈ f.elements,
    (c.extend module.items).Serves mapper e)
  (ordinary : ∀ m ∈ unit.allMessages, ∀ o ∈ m.oneofs, ∀ f ∈ o.fields, f.isMap = false)
  (takes : ∀ e ∈ unit.allEnums, (enumClass e).TakesNames)
include served ordinary takes

theorem ModuleBuilt.functions_closed : ∀ f ∈ module.functions, Closed (c.extend module.items) f := by
  have all := module.body_defined c
  intro f isFunction
  rw [built.functions, List.mem_append] at isFunction
  rcases isFunction with ofEnum | ofMessage
  · obtain ⟨e, isEnum, isFunction⟩ := List.mem_flatMap.mp ofEnum
    have defines := built.definesEnum all (module.body_members c) isEnum (takes e isEnum)
    simp only [enumFunctions, List.mem_cons, List.not_mem_nil, or_false] at isFunction
    rcases isFunction with rfl | rfl
    · exact enumReader_closed defines
    · exact enumWriter_closed defines
  · obtain ⟨result, isResult, isFunction⟩ := List.mem_flatten.mp ofMessage
    obtain ⟨m, isMessage, found⟩ := built.converted.exists_left isResult
    exact messageFunctions_closed (built.defines all isMessage) (served m isMessage)
      (ordinary m isMessage) found (built.functions_imported imported isResult) f isFunction

/-- What is evaluated when the module is imported: enums serve the defaults of classes, and all that
    functions and parsers ask for comes before them. -/
theorem ModuleBuilt.runs
    (defaults : ∀ m ∈ unit.allMessages, ∀ f ∈ m.allFields, ∀ e ∈ f.elements,
      (c.extend (module.enums.map (·.item))).ServesDefault mapper e)
    (shown : ∀ d ∈ module.declarations, d.ShowsDefaults) : c.Runs module.items := by
  rw [Module.items, Module.bodyItems, Context.runs_append, Context.runs_append, Context.runs_append,
    Context.runs_append]
  -- The parts of the body in their order: enums, classes, tables, functions, parsers.
  refine ⟨⟨⟨⟨?_, ?_⟩, ?_⟩, ?_⟩, ?_⟩
  · refine Context.runs_of_forall fun item member => ?_
    simp only [built.enums, List.map_map, List.mem_map, Function.comp_apply] at member
    obtain ⟨e, isEnum, rfl⟩ := member
    refine enumClass_resolves ?_
    rw [imported]
    exact built.ofEnums (List.ne_nil_of_mem isEnum)
  · rw [built.declarations, List.map_flatten]
    refine Context.runs_flatten fun chunk member => ?_
    obtain ⟨result, isResult, rfl⟩ := List.mem_map.mp member
    obtain ⟨m, isMessage, found⟩ := built.declared.exists_left isResult
    have ofClasses := built.ofClasses (List.ne_nil_of_mem isMessage)
    rw [← imported] at ofClasses
    refine messageDeclarations_runs (defaults m isMessage) found
      (built.declarations_imported imported isResult) ofClasses fun d isDeclared => shown d ?_
    rw [built.declarations]
    exact List.mem_flatten.mpr ⟨result, isResult, isDeclared⟩
  · refine Context.runs_of_forall fun item member => ?_
    simp only [built.tables, List.map_map, List.mem_map, Function.comp_apply] at member
    obtain ⟨e, isEnum, rfl⟩ := member
    refine enumTables_resolves (fun member inClass => ?_) (built.tables_imported imported isEnum)
    refine List.mem_append_right _ ?_
    rw [List.flatMap_append]
    exact List.mem_append_left _ (built.enum_members isEnum (takes e isEnum) member inClass)
  · refine Context.runs_of_forall fun item member => ?_
    obtain ⟨f, isFunction, rfl⟩ := List.mem_map.mp member
    have closed := built.functions_closed imported served ordinary takes f isFunction
    rw [functionItem, closed.evaluated]
    simp
  · refine Context.runs_of_forall fun item member => ?_
    simp only [built.parsers, List.map_map, List.mem_map, Function.comp_apply] at member
    obtain ⟨m, isMessage, rfl⟩ := member
    have resolves := built.parsers_resolve imported isMessage
    exact fun p isPath => resolves p (List.mem_append_left _ isPath)

theorem ModuleBuilt.resolves :
    ∀ item ∈ module.items, ∀ p ∈ item.deferred, (c.extend module.items).Resolves p := by
  intro item member
  simp only [Module.items, Module.bodyItems, List.mem_append] at member
  rcases member with (((member | member) | member) | member) | member
  · obtain ⟨e, _, rfl⟩ := List.mem_map.mp member
    intro p none
    cases none
  · obtain ⟨d, isDeclared, rfl⟩ := List.mem_map.mp member
    rw [built.declarations] at isDeclared
    obtain ⟨result, isResult, inResult⟩ := List.mem_flatten.mp isDeclared
    obtain ⟨m, isMessage, found⟩ := built.declared.exists_left isResult
    have defines := built.defines (module.body_defined c) isMessage
    exact messageDeclarations_resolves defines (served m isMessage) found
      (built.declarations_imported imported isResult) d inResult
  · obtain ⟨t, _, rfl⟩ := List.mem_map.mp member
    intro p none
    cases none
  · obtain ⟨f, isFunction, rfl⟩ := List.mem_map.mp member
    exact (built.functions_closed imported served ordinary takes f isFunction).resolves
  · simp only [built.parsers, List.map_map, List.mem_map, Function.comp_apply] at member
    obtain ⟨m, isMessage, rfl⟩ := member
    intro p isPath
    have resolves := built.parsers_resolve imported isMessage p (List.mem_append_right _ isPath)
    rw [Module.items, Context.extend_append]
    exact resolves.mono (.extend _ _)

end SelfContained

end ProtoBindings.Value
