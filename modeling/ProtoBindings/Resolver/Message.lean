import ProtoBindings.Resolver.Field

namespace ProtoBindings.Resolver

open Schema (EnumType EnumValue Field Message Oneof)

def syntheticOneofs (fields : List Descriptor.Field) : List Int :=
  (fields.filter (·.isProto3Optional)).filterMap (·.oneofIndex)

def realOneof? (message : Descriptor.Message) (field : Descriptor.Field) : Option Int :=
  field.oneofIndex.filter fun index => !(syntheticOneofs message.fields).contains index

/-- Negative indices count from the end. -/
def declaredOneof (oneofs : List String) (index : Int) : Except Error String :=
  let position := if index < 0 then index + oneofs.length else index
  match if position < 0 then none else oneofs[position.toNat]? with
  | some name => .ok name
  | none => .error .oneofOutOfRange

structure PlacedField where
  oneof : Option Int
  field : Field
  deriving Repr

def placeField (depth : Nat) (table : SymbolTable) (message : Descriptor.Message) (fullName : String)
    (field : Descriptor.Field) : Except Error PlacedField := do
  let index := realOneof? message field
  let oneof ← index.mapM (declaredOneof message.oneofs)
  let built ← buildFieldTo table depth field (fullName ++ "." ++ field.name) oneof
  return ⟨index, built⟩

/-- The indices of the oneofs that have a field, in increasing order. -/
def usedOneofs (placed : List PlacedField) : List Int :=
  (placed.filterMap (·.oneof)).eraseDups.mergeSort (· ≤ ·)

def buildOneof (message : Descriptor.Message) (placed : List PlacedField) (index : Int) :
    Except Error Oneof := do
  let name ← declaredOneof message.oneofs index
  return ⟨name, (placed.filter (·.oneof == some index)).map (·.field)⟩

def declaredRef (table : SymbolTable) (file : Descriptor.File) (path : List String) :
    Except Error Schema.TypeRef :=
  let fullName := (refAt file path).fullName
  match table.find? fullName with
  | some symbol => .ok symbol.ref
  | none => .error (.undeclared fullName)

def buildEnum (table : SymbolTable) (file : Descriptor.File) (scope : List String)
    (e : Descriptor.Enum) : Except Error EnumType := do
  let path := scope ++ [e.name]
  let ref ← declaredRef table file path
  return {
    name := e.name
    fullName := (refAt file path).fullName
    ref
    values := e.values.map fun value => ⟨value.name, value.number⟩ }

mutual

def buildMessage (room : Room) (table : SymbolTable) (file : Descriptor.File) (scope : List String) :
    Descriptor.Message → Except Error Message
  | ⟨name, fields, oneofs, messages, enums, isMapEntry⟩ => do
    let message : Descriptor.Message := ⟨name, fields, oneofs, messages, enums, isMapEntry⟩
    let path := scope ++ [name]
    let fullName := (refAt file path).fullName
    let ref ← declaredRef table file path
    let placed ← fields.mapM (placeField (room.levels scope.length) table message fullName)
    let builtOneofs ← (usedOneofs placed).mapM (buildOneof message placed)
    let nested ← buildMessages room table file path messages
    let builtEnums ← enums.mapM (buildEnum table file path)
    return {
      name
      fullName
      ref
      fields := (placed.filter (·.oneof.isNone)).map (·.field)
      oneofs := builtOneofs
      messages := nested
      enums := builtEnums
      declarationOrder := fields.map (·.name) }

def buildMessages (room : Room) (table : SymbolTable) (file : Descriptor.File) (scope : List String) :
    List Descriptor.Message → Except Error (List Message)
  | [] => .ok []
  | message :: rest =>
    if message.isMapEntry then buildMessages room table file scope rest
    else do
      let first ← buildMessage room table file scope message
      let others ← buildMessages room table file scope rest
      return first :: others

end

end ProtoBindings.Resolver
