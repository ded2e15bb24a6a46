import ProtoBindings.Resolver.Error
import ProtoBindings.Resolver.Symbol
import ProtoBindings.Schema.Basic
import ProtoBindings.Text.Basic

namespace ProtoBindings.Resolver

open Schema (Field FieldInfo)

def SymbolTable.resolve (table : SymbolTable) (typeName context : String) : Except Error Symbol :=
  match table.find? (Text.dropLeadingDots typeName) with
  | some symbol => .ok symbol
  | none => .error (.undefinedType typeName context)

def fieldNumbered? (message : Descriptor.Message) (number : Nat) : Option Descriptor.Field :=
  message.fields.reverse.find? (·.number == number)

def fieldNumbered (message : Descriptor.Message) (number : Nat) : Except Error Descriptor.Field :=
  match fieldNumbered? message number with
  | some field => .ok field
  | none => .error (.missingEntryField number)

def Symbol.element (symbol : Symbol) : Schema.ElementType :=
  match symbol.declaration with
  | .message _ => .message symbol.ref
  | .enum => .enum symbol.ref

def Symbol.entry? (symbol : Symbol) (label : Descriptor.Label) : Option Descriptor.Message :=
  match symbol.declaration with
  | .message descriptor =>
    if label = .repeated ∧ descriptor.isMapEntry then some descriptor else none
  | .enum => none

def ordinaryField (field : Descriptor.Field) (element : Schema.ElementType)
    (oneof : Option String) : Field :=
  .ordinary {
    name := field.name
    number := field.number
    element
    isRepeated := field.label = .repeated
    isExplicitOptional := field.isProto3Optional
    oneof
    deprecated := field.deprecated }

/-- How deep map entries are followed from the fields of a message, by the number of messages around it.
    An entry can always be followed to its key and to its value. -/
structure Room where
  levels : (around : Nat) → Nat
  spare : ∀ around, 2 ≤ levels around

/-- The stack of calls as the program starts with it. A message takes two more calls than the one around
    it, and so many messages around each other that none are left do not come over the wire. -/
def hostRoom : Room where
  levels around := max 2 (985 - 2 * around)
  spare _ := Nat.le_max_left _ _

/-- `depth` bounds how far entries are followed. -/
def buildFieldTo (table : SymbolTable) :
    (depth : Nat) → Descriptor.Field → (context : String) → Option String → Except Error Field
  | 0, _, _, _ => .error (.deepMapEntry [])
  | depth + 1, field, context, oneof =>
    match field.type with
    | .scalar type => .ok (ordinaryField field (.scalar type) oneof)
    | .group | .message | .enum => do
      let symbol ← table.resolve field.typeName context
      match symbol.entry? field.label with
      | some entry => do
        let key ← fieldNumbered entry 1
        let key ← (buildFieldTo table depth key (context ++ ".key") none).mapError (.inPart .key)
        let value ← fieldNumbered entry 2
        let value ← (buildFieldTo table depth value (context ++ ".value") none).mapError
          (.inPart .value)
        return .map {
          name := field.name
          number := field.number
          element := .message symbol.ref
          deprecated := field.deprecated } key value
      | none => return ordinaryField field symbol.element oneof

end ProtoBindings.Resolver
