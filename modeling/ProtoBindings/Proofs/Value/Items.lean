import ProtoBindings.Proofs.Code.ClassScope
import ProtoBindings.Value.Module

namespace ProtoBindings

open Code (Path blockBound blockPaths freePaths inClass isMemberName nameInClass)

namespace Code

def Param.bound : Param → List String
  | named name _ _ => [name]
  | byNameOnly => []

def Param.annotated : Param → List Path
  | named _ type _ => type.toList.flatMap (·.paths)
  | byNameOnly => []

def Param.evaluated : Param → List Path
  | named _ _ default => default.toList.flatMap (·.paths)
  | byNameOnly => []

namespace Function

def locals (f : Function) : List String := f.params.flatMap (·.bound) ++ blockBound f.body

def evaluated (f : Function) : List Path := f.params.flatMap (·.evaluated)

def annotationPaths (f : Function) : List Path := f.params.flatMap (·.annotated) ++ f.returns.paths

/-- What a call of a function evaluates that is not its own. -/
def bodyPaths (f : Function) : List Path := freePaths f.locals (blockPaths f.body)

def deferred (f : Function) : List Path := f.annotationPaths ++ f.bodyPaths

theorem deferred_eq (f : Function) : f.deferred = f.annotationPaths ++ f.bodyPaths := rfl

end Function

end Code

namespace Value

structure Item where
  lines : List String
  defines : List String
  members : List (String × String) := []
  evaluated : List Path
  /-- What it would evaluate as well, if it had not taken the name for itself by then. -/
  concealed : List Path := []
  deferred : List Path := []

namespace EnumClass

/-- The members that the class has. Names that it does not take for members are left out, and it cannot be
    made with one name twice. -/
def ownMembers (e : EnumClass) : List EnumMember :=
  if (e.members.map (·.name)).Nodup then
    e.members.filter fun member => isMemberName e.name member.name
  else []

structure TakesNames (e : EnumClass) : Prop where
  distinct : (e.members.map (·.name)).Nodup
  each : ∀ member ∈ e.members, isMemberName e.name member.name = true

instance (e : EnumClass) : Decidable e.TakesNames :=
  decidable_of_iff (_ ∧ _) ⟨fun ⟨distinct, each⟩ => ⟨distinct, each⟩,
    fun ⟨distinct, each⟩ => ⟨distinct, each⟩⟩

theorem TakesNames.ownMembers_eq {e : EnumClass} (takes : e.TakesNames) : e.ownMembers = e.members := by
  rw [ownMembers, if_pos takes.distinct]
  exact List.filter_eq_self.mpr takes.each

theorem mem_ownMembers {e : EnumClass} {member : EnumMember} (isMember : member ∈ e.ownMembers) :
    member ∈ e.members ∧ isMemberName e.name member.name = true := by
  rw [ownMembers] at isMember
  split at isMember
  · exact List.mem_filter.mp isMember
  · cases isMember

def item (e : EnumClass) : Item where
  lines := e.lines
  defines := [e.name]
  members := e.ownMembers.map fun member => (e.name, member.name)
  evaluated := [["enum", "IntEnum"]]

end EnumClass

namespace DataClass

/-- The paths in the defaults of a class, each with the names that attributes have taken by then. -/
def defaultPathsFrom (className : String) (taken : List String) :
    List Attribute → List (List String × Path)
  | [] => []
  | a :: rest => (inClass className a.default.paths).map ((taken, ·)) ++
    defaultPathsFrom className (taken ++ [nameInClass className a.name]) rest

def defaultPaths (c : DataClass) : List (List String × Path) := defaultPathsFrom c.name [] c.attributes

def item (c : DataClass) : Item where
  lines := c.lines
  defines := [c.name]
  evaluated := ["dataclasses", "dataclass"] ::
    (c.defaultPaths.filter fun (taken, p) => !p.startsIn taken).map (·.2) ++
      inClass c.name (c.methods.flatMap (·.evaluated))
  concealed := (c.defaultPaths.filter fun (taken, p) => p.startsIn taken).map (·.2)
  deferred := c.attributes.flatMap (·.type.paths) ++ c.methods.flatMap (·.annotationPaths) ++
    inClass c.name (c.methods.flatMap (·.bodyPaths))

end DataClass

def Declaration.attributes : Declaration → List Attribute
  | dataClass definition => definition.attributes
  | union _ _ => []

def Declaration.item : Declaration → Item
  | dataClass definition => definition.item
  | union name variants => {
    lines := (union name variants).lines
    defines := [name]
    evaluated := ["Union"] :: variants.map ([·]) }

def EnumTables.item (t : EnumTables) : Item where
  lines := t.lines
  defines := [fromHostName t.constant, toHostName t.constant]
  members := [(fromHostName t.constant, "get")]
  evaluated := (t.fromHost ++ t.toHost).flatMap fun entry =>
    entry.host.paths ++ [[t.className, entry.member]]

def functionItem (f : Code.Function) : Item where
  lines := ["", ""] ++ f.lines ""
  defines := [f.name]
  evaluated := f.evaluated
  deferred := f.deferred

def ParserConstant.item (p : ParserConstant) : Item where
  lines := [p.line]
  defines := [p.name]
  evaluated := ["_parsers", "IdiomParser"] :: p.host.paths ++ [[p.reader]]
  deferred := [["_parsers", "IdiomParser"], [p.valueClass]]

namespace Module

def bodyItems (m : Module) : List Item :=
  m.enums.map (·.item) ++ m.declarations.map (·.item) ++ m.tables.map (·.item) ++
    m.functions.map functionItem

def items (m : Module) : List Item := m.bodyItems ++ m.parsers.map (·.item)

def definitions (m : Module) : List String := m.items.flatMap (·.defines)

end Module

theorem Module.owner_defined {m : Module} {item : Item} (isItem : item ∈ m.items)
    {owned : String × String} (isMember : owned ∈ item.members) : owned.1 ∈ item.defines := by
  simp only [items, bodyItems, List.mem_append] at isItem
  rcases isItem with (((isEnum | isDeclaration) | isTable) | isFunction) | isParser
  · obtain ⟨e, _, rfl⟩ := List.mem_map.mp isEnum
    obtain ⟨member, _, rfl⟩ := List.mem_map.mp isMember
    exact List.mem_singleton_self _
  · obtain ⟨d, _, rfl⟩ := List.mem_map.mp isDeclaration
    cases d <;> cases isMember
  · obtain ⟨t, _, rfl⟩ := List.mem_map.mp isTable
    rw [List.mem_singleton.mp isMember]
    exact List.mem_cons_self
  · obtain ⟨f, _, rfl⟩ := List.mem_map.mp isFunction
    cases isMember
  · obtain ⟨p, _, rfl⟩ := List.mem_map.mp isParser
    cases isMember

theorem Declaration.item_lines (d : Declaration) : d.item.lines = d.lines := by
  cases d <;> rfl

/-- After header and imports, the lines of a module are those of its items, in order. -/
def Module.IsSpelled (m : Module) : Prop :=
  ∃ gap, (gap = [] ∨ gap = ["", ""]) ∧
    m.lines = header m.source "Idiomatic value types and conversions for" ++
      (if Import.block m.imports = [] then [] else "" :: Import.block m.imports) ++
      m.bodyItems.flatMap (·.lines) ++ gap ++ (m.parsers.map (·.item)).flatMap (·.lines)

theorem Module.isSpelled (m : Module) : m.IsSpelled := by
  refine ⟨if m.parsers = [] then [] else ["", ""], ?_, ?_⟩
  · split <;> simp
  · have parsers : (m.parsers.map (·.item)).flatMap (·.lines) = m.parsers.map (·.line) := by
      rw [List.flatMap_map, List.map_eq_flatMap]
      rfl
    have body : m.bodyItems.flatMap (·.lines) = m.enums.flatMap (·.lines) ++
        m.declarations.flatMap (·.lines) ++ m.tables.flatMap (·.lines) ++
        m.functions.flatMap (fun f => ["", ""] ++ f.lines "") := by
      simp only [bodyItems, List.flatMap_append, List.flatMap_map, Declaration.item_lines]
      rfl
    rw [parsers, body, Module.lines]
    by_cases none : m.parsers = []
    · simp [none]
    · simp [none]

end Value

end ProtoBindings
