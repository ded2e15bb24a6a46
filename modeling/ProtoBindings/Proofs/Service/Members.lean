import ProtoBindings.Proofs.Name.Reserved
import ProtoBindings.Proofs.Name.Start
import ProtoBindings.Proofs.Service.Classes

namespace ProtoBindings

open Code (Function)

namespace Code

def Function.keywords (f : Function) : List String :=
  (f.params.dropWhile (· != .byNameOnly)).flatMap (·.bound)

end Code

namespace Service

open Name (IsWord snakeCase suffixed)
open Schema (Method)

namespace ServiceClass

def methodNames (k : ServiceClass) : List String := k.methods.map (·.name)

def constructors (k : ServiceClass) : List Function := k.methods.filter (·.name == "__init__")

def kept (k : ServiceClass) : List String := k.constructors.flatMap (·.body.filterMap (·.setsOnSelf?))

def keywords (k : ServiceClass) : List String := k.constructors.flatMap (·.keywords)

end ServiceClass

/-- What the classes define that is not a method of the service. -/
def fixedNames : List String := ["bind", "add_to_server", "__init__"]

structure MembersDistinct (servicer stub implementation : ServiceClass) : Prop where
  served : (servicer.methodNames ++ ["__init__"]).Nodup
  called : (stub.methodNames ++ ["bind", "add_to_server"]).Nodup
  given : (implementation.keywords ++ fixedNames).Nodup
  attributes : ∀ id ∈ stub.kept, id ∉ stub.methodNames

def snakeNames (s : Schema.Service) : List String := s.methods.map (snakeCase ·.name)

def isTaken (name : String) : Bool := classMembers.contains name || Name.isReserved name

/-- What keeps the generated names of the methods distinct. -/
structure MethodsApart (s : Schema.Service) : Prop where
  distinct : (snakeNames s).Nodup
  taken : ∀ name ∈ snakeNames s, isTaken name = true → name ++ "_" ∉ snakeNames s

structure MembersApart (s : Schema.Service) : Prop where
  methods : MethodsApart s
  attributes : ∀ name ∈ snakeNames s, "_" ++ name ∉ snakeNames s

instance (s : Schema.Service) : Decidable (MethodsApart s) :=
  decidable_of_iff ((snakeNames s).Nodup ∧
      ∀ name ∈ snakeNames s, isTaken name = true → name ++ "_" ∉ snakeNames s)
    ⟨fun ⟨distinct, taken⟩ => ⟨distinct, taken⟩, fun ⟨distinct, taken⟩ => ⟨distinct, taken⟩⟩

instance (s : Schema.Service) : Decidable (MembersApart s) :=
  decidable_of_iff (MethodsApart s ∧ ∀ name ∈ snakeNames s, "_" ++ name ∉ snakeNames s)
    ⟨fun ⟨methods, attributes⟩ => ⟨methods, attributes⟩,
      fun ⟨methods, attributes⟩ => ⟨methods, attributes⟩⟩

section Spelling

theorem mem_of_isTaken {name : String} (taken : isTaken name = true) :
    name ∈ classMembers ++ (Name.keywords ++ Name.classBodyNames) := by
  rcases Bool.or_eq_true_iff.mp taken with isMember | reserved
  · exact List.mem_append_left _ (List.contains_iff_mem.mp isMember)
  · exact List.mem_append_right _ (Name.mem_of_isReserved reserved)

theorem isTaken_append (name : String) : isTaken (name ++ "_") = false := by
  have endings : ∀ known ∈ classMembers, known.toList.getLast? ≠ some '_' := by decide
  have free : name ++ "_" ∉ classMembers := fun isMember => endings _ isMember (by simp)
  rw [isTaken, Name.isReserved_append, Bool.or_false]
  simpa using free

theorem methodName_eq (m : Method) : methodName m = suffixed isTaken (snakeCase m.name) := by
  by_cases isMember : classMembers.contains (snakeCase m.name) = true
  · simp only [methodName, suffixed, isTaken, isMember, if_true, Bool.true_or]
  · simp only [methodName, suffixed, isTaken, isMember, Bool.false_or, Name.escape, Bool.false_eq_true,
      if_false]

theorem map_methodName (s : Schema.Service) :
    s.methods.map methodName = (snakeNames s).map (suffixed isTaken) := by
  rw [snakeNames, List.map_map]
  refine List.map_congr_left fun m _ => ?_
  rw [Function.comp_apply, methodName_eq]

theorem suffixed_eq_underscore {name rest : String} :
    suffixed isTaken name = "_" ++ rest ↔ name = "_" ++ rest := by
  have starts : ∀ known ∈ classMembers ++ (Name.keywords ++ Name.classBodyNames),
      ¬ "_".toList <+: (known ++ "_").toList := by decide +kernel
  exact Name.suffixed_eq_append_iff fun known taken => starts known (mem_of_isTaken taken)

theorem isWord_methodName {m : Method} (word : IsWord m.name) : IsWord (methodName m) := by
  have snake : IsWord (snakeCase m.name) := fun c member =>
    Name.isWordChar_of_isSnakeChar (Name.isSnake_snakeCase word c member)
  rcases Name.suffixed_eq_iff.mp (methodName_eq m).symm with ⟨_, same⟩ | ⟨_, same⟩
  · rwa [← same]
  · rw [← same]
    exact Name.isWord_append.mpr ⟨snake, by decide⟩

theorem spaced_snakeNames {s : Schema.Service} (words : ∀ m ∈ s.methods, IsWord m.name) :
    ∀ name ∈ snakeNames s, name.toList.IsChain Name.Spaced := by
  intro name isName
  obtain ⟨m, isMethod, rfl⟩ := List.mem_map.mp isName
  exact Name.isChain_snakeCase (words m isMethod)

end Spelling

section Names

variable {s : Schema.Service} (words : ∀ m ∈ s.methods, IsWord m.name)

theorem methodNames_nodup_iff : (s.methods.map methodName).Nodup ↔ MethodsApart s := by
  rw [map_methodName, Name.nodup_map_suffixed_iff isTaken_append]
  exact ⟨fun ⟨distinct, taken⟩ => ⟨distinct, taken⟩, fun ⟨distinct, taken⟩ => ⟨distinct, taken⟩⟩

theorem underscore_mem_methodNames {name : String} :
    "_" ++ name ∈ s.methods.map methodName ↔ "_" ++ name ∈ snakeNames s := by
  simp only [map_methodName, List.mem_map, suffixed_eq_underscore, exists_eq_right]

include words

/-- The constructor starts and ends with two underscores, and no name has two in a row. -/
theorem methodName_not_fixed : ∀ name ∈ s.methods.map methodName, name ∉ fixedNames := by
  intro name isName
  have free : isTaken name = false := by
    rw [map_methodName] at isName
    obtain ⟨snake, _, rfl⟩ := List.mem_map.mp isName
    exact Name.not_taken_suffixed isTaken_append snake
  have constructor : name ≠ "__init__" := by
    rintro rfl
    have isSnake : "_" ++ "_init__" ∈ snakeNames s := underscore_mem_methodNames.mp isName
    have spaced := spaced_snakeNames words _ isSnake
    simp [Name.Spaced] at spaced
  have members : ∀ member ∈ classMembers, isTaken member = true := by decide +kernel
  intro fixed
  rcases List.mem_append.mp (show name ∈ classMembers ++ ["__init__"] from fixed) with member | init
  · rw [members name member] at free
    cases free
  · exact constructor (List.mem_singleton.mp init)

theorem nodup_of_perm {names : List String}
    (perm : names.Perm (s.methods.map methodName ++ fixedNames)) :
    names.Nodup ↔ (s.methods.map methodName).Nodup := by
  have fixed : fixedNames.Nodup := by decide
  have apart : (s.methods.map methodName).Disjoint fixedNames :=
    fun name isMethod isFixed => methodName_not_fixed words name isMethod isFixed
  rw [perm.nodup_iff, List.nodup_append']
  exact ⟨And.left, fun distinct => ⟨distinct, fixed, apart⟩⟩

theorem stubAttributes_apart_iff :
    (∀ id ∈ s.methods.map stubAttribute, id ∉ "__init__" :: s.methods.map methodName) ↔
      ∀ name ∈ snakeNames s, "_" ++ name ∉ snakeNames s := by
  have attributes : s.methods.map stubAttribute = (snakeNames s).map ("_" ++ ·) := by
    rw [snakeNames, List.map_map]
    rfl
  have constructor : ∀ name ∈ snakeNames s, "_" ++ name ≠ "__init__" := by
    intro name isName same
    have init : name = "_init__" := (String.append_right_inj "_").mp same
    have spaced := spaced_snakeNames words name isName
    simp [init, Name.Spaced] at spaced
  rw [attributes, List.forall_mem_map]
  refine forall₂_congr fun name isName => ?_
  rw [List.mem_cons, underscore_mem_methodNames, or_iff_right (constructor name isName)]

end Names

section Classes

variable {mapper : Mapper} {s : Schema.Service} {b : Bound}

def alone (s : Schema.Service) : Schema.FileUnit where
  name := ""
  package := ""
  dependencies := []
  messages := []
  enums := []
  services := [s]

theorem Bound.built_alone (result : Bound.of mapper s = .ok b) :
    ModuleBuilt (alone s) ⟨"", [b]⟩ := by
  have made : Module.ofUnit mapper (alone s) = .ok ⟨"", [b]⟩ := by
    simp [Module.ofUnit, alone, result]
  exact Module.ofUnit_eq_ok made

/-- What each class of a service has under which name. -/
structure MembersOf (s : Schema.Service) (servicer stub implementation : ServiceClass) : Prop where
  served : servicer.methodNames = s.methods.map methodName ++ ["bind", "add_to_server"]
  called : stub.methodNames = "__init__" :: s.methods.map methodName
  attributes : stub.kept = s.methods.map stubAttribute
  given : implementation.keywords = s.methods.map methodName

theorem constructors_of_head {k : ServiceClass} {init : Function} {rest : List Function}
    (methods : k.methods = init :: rest) (named : init.name = "__init__")
    (others : ∀ f ∈ rest, f.name ≠ "__init__") : k.constructors = [init] := by
  have none : rest.filter (·.name == "__init__") = [] := by
    simpa [List.filter_eq_nil_iff] using others
  rw [ServiceClass.constructors, methods, List.filter_cons_of_pos (by simp [named]), none]

theorem membersOf (words : ∀ m ∈ s.methods, IsWord m.name) (result : Bound.of mapper s = .ok b) :
    ∃ servicer stub implementation, b.classes = [servicer, stub, implementation] ∧
      MembersOf s servicer stub implementation := by
  have built := b.built_alone result
  have isBound : b ∈ [b] := List.mem_singleton_self b
  have service : b.service = s := (Bound.of_eq_ok result).1
  have servicer := built.servicer_wired isBound
  have stub := built.stub_wired isBound
  rw [service] at servicer stub
  have bindings {α : Type} (f : Method → α) : b.bindings.map (f ·.method) = s.methods.map f := by
    rw [← service]
    exact built.bound_map isBound fun _ => f
  refine ⟨_, _, _, rfl, ⟨?_, ?_, ?_, ?_⟩⟩
  · rw [service]
    exact servicer.methods
  · rw [service]
    exact stub.methods
  · have others : ∀ f ∈ b.bindings.map (·.clientMethod), f.name ≠ "__init__" := by
      intro f isMethod named
      obtain ⟨r, isBinding, rfl⟩ := List.mem_map.mp isMethod
      have isName : methodName r.method ∈ s.methods.map methodName := by
        rw [← bindings methodName]
        exact List.mem_map.mpr ⟨r, isBinding, rfl⟩
      rw [r.clientMethod_name] at named
      exact methodName_not_fixed words _ isName (named ▸ by decide)
    rw [ServiceClass.kept, constructors_of_head rfl rfl others, List.flatMap_singleton,
      clientInit_sets, bindings stubAttribute]
  · have keywords : (partialInit b.bindings).keywords = b.bindings.map (methodName ·.method) := by
      rw [List.map_eq_flatMap]
      exact List.flatMap_map ..
    have others : ∀ f ∈ [handlerFunction b.service partialAttribute b.bindings, addToServer],
        f.name ≠ "__init__" := by
      simp [handlerFunction, addToServer]
    rw [ServiceClass.keywords, constructors_of_head rfl rfl others, List.flatMap_singleton, keywords,
      bindings methodName]

variable {servicer stub implementation : ServiceClass}

theorem MembersOf.distinct_iff (members : MembersOf s servicer stub implementation)
    (words : ∀ m ∈ s.methods, IsWord m.name) :
    MembersDistinct servicer stub implementation ↔ MembersApart s := by
  have ofServicer : (servicer.methodNames ++ ["__init__"]).Nodup ↔
      (s.methods.map methodName).Nodup := by
    refine nodup_of_perm words ?_
    rw [members.served, List.append_assoc]
    rfl
  have ofStub : (stub.methodNames ++ ["bind", "add_to_server"]).Nodup ↔
      (s.methods.map methodName).Nodup := by
    refine nodup_of_perm words ?_
    have behind := List.perm_append_singleton "__init__"
      (s.methods.map methodName ++ ["bind", "add_to_server"])
    rw [List.append_assoc] at behind
    rw [members.called, List.cons_append]
    exact behind.symm
  have ofKeywords : (implementation.keywords ++ fixedNames).Nodup ↔
      (s.methods.map methodName).Nodup := by
    refine nodup_of_perm words ?_
    rw [members.given]
  have ofAttributes := stubAttributes_apart_iff words
  rw [← members.attributes, ← members.called] at ofAttributes
  constructor
  · intro distinct
    exact ⟨methodNames_nodup_iff.mp (ofServicer.mp distinct.served), ofAttributes.mp distinct.attributes⟩
  · intro apart
    have names := methodNames_nodup_iff.mpr apart.methods
    exact ⟨ofServicer.mpr names, ofStub.mpr names, ofKeywords.mpr names,
      ofAttributes.mpr apart.attributes⟩

end Classes

/-- The members of the classes are distinct exactly if the methods have distinct names in snake case, of
    which none is a taken one with an underscore behind it, or any other one with an underscore before
    it. A method never has the name of a member that the classes define for themselves. -/
theorem membersDistinct_iff {mapper : Mapper} {s : Schema.Service} {b : Bound}
    (words : ∀ m ∈ s.methods, IsWord m.name) (result : Bound.of mapper s = .ok b) :
    (∀ m ∈ s.methods, methodName m ∉ fixedNames) ∧
    ∃ servicer stub implementation, b.classes = [servicer, stub, implementation] ∧
      MembersOf s servicer stub implementation ∧
      (MembersDistinct servicer stub implementation ↔ MembersApart s) := by
  obtain ⟨servicer, stub, implementation, classes, members⟩ := membersOf words result
  have fixed := List.forall_mem_map.mp (methodName_not_fixed words)
  exact ⟨fixed, servicer, stub, implementation, classes, members, members.distinct_iff words⟩

section Examples

def desk : Schema.Service := serviceOf "Desk" ["Bind", "__init__", "Import", "GetItem", "Get"]

theorem desk_membersDistinct : (∀ m ∈ desk.methods, IsWord m.name) ∧
    ∃ b, Bound.of shopMapper desk = .ok b ∧
    ∃ servicer stub implementation, b.classes = [servicer, stub, implementation] ∧
      implementation.keywords = ["bind_", "_init_", "import_", "get_item", "get"] ∧
      MembersDistinct servicer stub implementation := by
  have words : ∀ m ∈ desk.methods, IsWord m.name := by decide
  obtain ⟨b, result⟩ := Result.exists_of_isSome (x := Bound.of shopMapper desk) rfl
  obtain ⟨_, servicer, stub, implementation, classes, members, distinct⟩ :=
    membersDistinct_iff words result
  have keywords : desk.methods.map methodName = ["bind_", "_init_", "import_", "get_item", "get"] := by
    decide +kernel
  have apart : MembersApart desk := by decide +kernel
  exact ⟨words, b, result, servicer, stub, implementation, classes, members.given.trans keywords,
    distinct.mpr apart⟩

def Clashes (s : Schema.Service) : Prop :=
  (s.methods.map (·.name)).Nodup ∧ (∀ m ∈ s.methods, IsWord m.name) ∧
  ∃ b, Bound.of shopMapper s = .ok b ∧
  ∃ servicer stub implementation, b.classes = [servicer, stub, implementation] ∧
    ¬ MembersDistinct servicer stub implementation

theorem clashes_of_not_apart {s : Schema.Service} (names : (s.methods.map (·.name)).Nodup)
    (words : ∀ m ∈ s.methods, IsWord m.name) (succeeds : (Bound.of shopMapper s).toOption.isSome = true)
    (together : ¬ MembersApart s) : Clashes s := by
  obtain ⟨b, result⟩ := Result.exists_of_isSome succeeds
  obtain ⟨servicer, stub, implementation, classes, members⟩ := membersOf words result
  refine ⟨names, words, b, result, servicer, stub, implementation, classes, ?_⟩
  rwa [members.distinct_iff words]

/-- Methods of one name in snake case, a method that is called like another one with its underscore, and
    a method that is called like the attribute of another one. -/
theorem desks_not_distinct : Clashes (serviceOf "Desk" ["GetItem", "get_item"]) ∧
    Clashes (serviceOf "Desk" ["Bind", "bind_"]) ∧ Clashes (serviceOf "Desk" ["Ping", "_Ping"]) := by
  refine ⟨?_, ?_, ?_⟩
  all_goals exact clashes_of_not_apart (by decide) (by decide) (by decide) (by decide +kernel)

end Examples

end Service

end ProtoBindings
