import ProtoBindings.Descriptor.Basic
import ProtoBindings.Schema.Type

namespace ProtoBindings.Resolver

open Schema (TypeRef qualify)

inductive Declaration
  | message (descriptor : Descriptor.Message)
  | enum
  deriving Repr

structure Symbol where
  ref : TypeRef
  declaration : Declaration
  deriving Repr

def refAt (file : Descriptor.File) (path : List String) : TypeRef where
  fullName := qualify file.package (".".intercalate path)
  file := file.name
  package := file.package
  path := path

def enumSymbols (file : Descriptor.File) (scope : List String) (enums : List Descriptor.Enum) :
    List Symbol :=
  enums.map fun e => ⟨refAt file (scope ++ [e.name]), .enum⟩

mutual

def messageSymbols (file : Descriptor.File) (scope : List String) :
    Descriptor.Message → List Symbol
  | ⟨name, fields, oneofs, messages, enums, isMapEntry⟩ =>
    ⟨refAt file (scope ++ [name]), .message ⟨name, fields, oneofs, messages, enums, isMapEntry⟩⟩ ::
      messagesSymbols file (scope ++ [name]) messages ++ enumSymbols file (scope ++ [name]) enums

def messagesSymbols (file : Descriptor.File) (scope : List String) :
    List Descriptor.Message → List Symbol
  | [] => []
  | message :: rest => messageSymbols file scope message ++ messagesSymbols file scope rest

end

def fileSymbols (file : Descriptor.File) : List Symbol :=
  messagesSymbols file [] file.messages ++ enumSymbols file [] file.enums

/-- Symbols in the order in which they came; of two with one full name the later one counts. -/
structure SymbolTable where
  newestFirst : List Symbol := []
  deriving Repr

namespace SymbolTable

def find? (table : SymbolTable) (fullName : String) : Option Symbol :=
  table.newestFirst.find? (·.ref.fullName == fullName)

def extend (table : SymbolTable) (symbols : List Symbol) : SymbolTable :=
  ⟨symbols.reverse ++ table.newestFirst⟩

def size (table : SymbolTable) : Nat := table.newestFirst.length

end SymbolTable

end ProtoBindings.Resolver
