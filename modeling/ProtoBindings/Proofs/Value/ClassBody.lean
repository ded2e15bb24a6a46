import ProtoBindings.Proofs.Name.Reserved
import ProtoBindings.Proofs.Value.Agreement
import ProtoBindings.Proofs.Value.Names
import ProtoBindings.Proofs.Value.Presence

namespace ProtoBindings.Value

open Code (nameInClass)
open Name (escape isReserved)
open Schema (Field Message)

/-- The names in the body of a class, as they are written. -/
def DataClass.bound (c : DataClass) : List String :=
  c.attributes.map (·.name) ++ c.methods.map (·.name)

/-- What these names stand for inside the class. -/
def DataClass.boundInside (c : DataClass) : List String := c.bound.map (nameInClass c.name)

def Declaration.bound : Declaration → List String
  | dataClass definition => definition.bound
  | union _ _ => []

section Class

variable {m : Message}

/-- What keeps the names in the body of a message's class distinct. -/
structure BodyApart (m : Message) : Prop where
  attributes : ∀ name ∈ m.memberNames, isReserved name = true → name ++ "_" ∉ m.memberNames
  methods : ∀ f ∈ m.fields, f.hasPresence = true → "has_" ++ f.name ∉ m.memberNames

theorem escaped_nodup_iff {names : List String} (distinct : names.Nodup) :
    (names.map escape).Nodup ↔ ∀ name ∈ names, isReserved name = true → name ++ "_" ∉ names := by
  rw [Name.escape_eq_suffixed, Name.nodup_map_suffixed_iff Name.isReserved_append,
    and_iff_right distinct]

theorem escape_eq_method {name field : String} :
    escape name = "has_" ++ field ↔ name = "has_" ++ field :=
  Name.escape_eq_append_iff (by decide +kernel)

theorem method_mem_escaped {names : List String} {field : String} :
    "has_" ++ field ∈ names.map escape ↔ "has_" ++ field ∈ names := by
  simp only [List.mem_map, escape_eq_method, exists_eq_right]

theorem presenceMethods_map_name (outside : ∀ f ∈ m.fields, f.inOneof = false) :
    (presenceMethods m).map (·.name) =
      (m.fields.filter (·.hasPresence)).map fun f => "has_" ++ f.name := by
  have same : m.fields.filter (fun f => f.hasPresence && !f.inOneof) =
      m.fields.filter (·.hasPresence) :=
    List.filter_congr fun f isField => by rw [outside f isField, Bool.not_false, Bool.and_true]
  rw [presenceMethods, same, List.map_map]
  rfl

theorem body_nodup_iff (members : m.memberNames.Nodup) (fields : (m.fields.map (·.name)).Nodup) :
    (m.memberNames.map escape ++
        (m.fields.filter (·.hasPresence)).map fun f => "has_" ++ f.name).Nodup ↔ BodyApart m := by
  have methods : ((m.fields.filter (·.hasPresence)).map fun f => "has_" ++ f.name).Nodup := by
    have named : ((m.fields.filter (·.hasPresence)).map (·.name)).Nodup :=
      fields.sublist (List.filter_sublist.map _)
    have prefixed := named.map fun s t same => (String.append_right_inj "has_").mp same
    rwa [List.map_map] at prefixed
  rw [List.nodup_append', escaped_nodup_iff members, List.disjoint_right]
  constructor
  · rintro ⟨attributes, _, apart⟩
    refine ⟨attributes, fun f isField present isMember => ?_⟩
    have isMethod : "has_" ++ f.name ∈ (m.fields.filter (·.hasPresence)).map fun f => "has_" ++ f.name :=
      List.mem_map_of_mem (f := fun f : Field => "has_" ++ f.name) (List.mem_filter.mpr ⟨isField, present⟩)
    exact apart isMethod (method_mem_escaped.mpr isMember)
  · intro apart
    refine ⟨apart.attributes, methods, fun {name} isMethod isAttribute => ?_⟩
    obtain ⟨f, found, rfl⟩ := List.mem_map.mp isMethod
    obtain ⟨isField, present⟩ := List.mem_filter.mp found
    exact apart.methods f isField present (method_mem_escaped.mp isAttribute)

end Class

instance (m : Message) : Decidable (BodyApart m) :=
  decidable_of_iff ((∀ name ∈ m.memberNames, isReserved name = true → name ++ "_" ∉ m.memberNames) ∧
      ∀ f ∈ m.fields, f.hasPresence = true → "has_" ++ f.name ∉ m.memberNames)
    ⟨fun ⟨attributes, methods⟩ => ⟨attributes, methods⟩,
      fun ⟨attributes, methods⟩ => ⟨attributes, methods⟩⟩

/-- The class of a message that the resolver built from distinct names binds the escaped names of its
    members and a method for each field with presence. These are distinct exactly if no member has the
    escaped name of another one, and none is called like a method. They stand for distinct names if, besides,
    none is what one that is private to the class becomes. -/
theorem built_class_bound_nodup_iff {room : Resolver.Room} {table : Resolver.SymbolTable}
    {file : Descriptor.File}
    {scope : List String} {message : Descriptor.Message} {m : Message} {mapper : Mapper}
    {declarations : List Declaration}
    (distinct : (message.fields.map (·.name) ++ message.oneofs).Nodup)
    (built : Resolver.buildMessage room table file scope message = .ok m)
    (result : messageDeclarations mapper m = .ok declarations) :
    ∃ c, declarations.getLast? = some (.dataClass c) ∧ c.name = m.ref.className ∧
      c.bound = m.memberNames.map escape ++
        (m.fields.filter (·.hasPresence)).map (fun f => "has_" ++ f.name) ∧
      (c.bound.Nodup ↔ BodyApart m) ∧
      (c.boundInside.Nodup ↔ BodyApart m ∧ ∀ name ∈ c.bound,
        nameInClass c.name name ∈ c.bound → nameInClass c.name name = name) := by
  obtain ⟨placed, whole⟩ := Resolver.buildMessage_eq_ok built
  obtain ⟨oneofs, c, rfl, _, ofMessage⟩ := messageDeclarations_eq_ok result
  have attributes : c.attributes.map (·.name) = m.memberNames.map escape := by
    rw [Message.memberNames, List.map_map]
    exact (ofMessage.attributes.map_eq fun member a found => (memberAttribute_name found).symm).symm
  have outside : ∀ f ∈ m.fields, f.inOneof = false := by
    intro f isField
    obtain ⟨_, _, _, fieldBuilt⟩ := whole.plain isField
    exact inOneof_of_built fieldBuilt
  have bound : c.bound = m.memberNames.map escape ++
      (m.fields.filter (·.hasPresence)).map (fun f => "has_" ++ f.name) := by
    rw [DataClass.bound, attributes, ofMessage.methods, presenceMethods_map_name outside]
  have ofFields := fieldNames_nodup (List.nodup_append.mp distinct).1 whole
  have apart : c.bound.Nodup ↔ BodyApart m := by
    rw [bound]
    exact body_nodup_iff (whole.memberNames_nodup distinct) ofFields
  refine ⟨c, List.getLast?_concat, ofMessage.name, bound, apart, ?_⟩
  rw [DataClass.boundInside, Code.nodup_map_nameInClass_iff, apart]

theorem reading_bound : (reading.fields.map (·.name) ++ reading.oneofs).Nodup ∧
    ∃ m, Resolver.buildMessage Resolver.hostRoom (.ofFiles [readingFile]) readingFile [] reading = .ok m ∧
      ∃ declarations, messageDeclarations ⟨{ file := "reading.proto", package := "weather" }, []⟩ m =
          .ok declarations ∧
        ∃ c, declarations.getLast? = some (.dataClass c) ∧ c.bound.Nodup := by
  have distinct : (reading.fields.map (·.name) ++ reading.oneofs).Nodup := by decide
  obtain ⟨m, built, apart, declarations, result, _⟩ : ∃ m,
      Resolver.buildMessage Resolver.hostRoom (.ofFiles [readingFile]) readingFile [] reading = .ok m ∧
        BodyApart m ∧
        ∃ declarations, messageDeclarations ⟨{ file := "reading.proto", package := "weather" }, []⟩ m =
          .ok declarations ∧ True := by
    decide +kernel
  obtain ⟨c, isLast, _, _, binds, _⟩ := built_class_bound_nodup_iff distinct built result
  exact ⟨distinct, m, built, declarations, result, c, isLast, binds.mpr apart⟩

/-- A field that is called like the method of another one. -/
def person : Descriptor.Message where
  name := "Person"
  fields := [
    { name := "name", number := 1, type := .scalar .string, oneofIndex := some 0,
      isProto3Optional := true },
    { name := "has_name", number := 2, type := .scalar .bool }]
  oneofs := ["_name"]

def basket : Descriptor.Message where
  name := "Basket"
  fields := [
    { name := "list", number := 1, type := .scalar .int32 },
    { name := "list_", number := 2, type := .scalar .int32 }]

theorem person_binds_twice :
    (person.fields.map (·.name) ++ person.oneofs).Nodup ∧
    OfFile { name := "person.proto", messages := [person] } (fun _ module =>
      module.declarations.map (·.bound) = [["name", "has_name", "has_name"]]) ∧
    (basket.fields.map (·.name) ++ basket.oneofs).Nodup ∧
    OfFile { name := "basket.proto", messages := [basket] } fun _ module =>
      module.declarations.map (·.bound) = [["list_", "list_"]] :=
  ⟨by decide, by decide +kernel, by decide, by decide +kernel⟩

end ProtoBindings.Value
