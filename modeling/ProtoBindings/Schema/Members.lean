import ProtoBindings.Schema.Basic

namespace ProtoBindings.Schema

inductive Member
  | field (f : Field)
  | oneof (o : Oneof)
  deriving DecidableEq, Repr

namespace Member

def name : Member → String
  | field f => f.name
  | oneof o => o.name

@[simp] theorem name_field (f : Field) : (field f).name = f.name := rfl

@[simp] theorem name_oneof (o : Oneof) : (oneof o).name = o.name := rfl

end Member

namespace Message

def plainField? (m : Message) (name : String) : Option Field :=
  m.fields.reverse.find? (·.name == name)

def oneofOf? (m : Message) (name : String) : Option Oneof :=
  m.oneofs.reverse.find? (·.fields.any (·.name == name))

/-- The members for a list of field names, without the oneofs already `seen`. A name of no field stands for
    the lookup that fails. -/
def entriesFrom (m : Message) (seen : List String) : List String → List (Except String Member)
  | [] => []
  | name :: rest =>
    match m.plainField? name with
    | some f => .ok (.field f) :: m.entriesFrom seen rest
    | none =>
      match m.oneofOf? name with
      | none => .error name :: m.entriesFrom seen rest
      | some o =>
        if seen.contains o.name then m.entriesFrom seen rest
        else .ok (.oneof o) :: m.entriesFrom (o.name :: seen) rest

def entries (m : Message) : List (Except String Member) := m.entriesFrom [] m.declarationOrder

end Message

end ProtoBindings.Schema
