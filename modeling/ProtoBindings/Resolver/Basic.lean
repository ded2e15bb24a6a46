import ProtoBindings.Resolver.Message

namespace ProtoBindings

open Schema (FileUnit Service)

structure Resolver where
  symbols : Resolver.SymbolTable := {}
  files : List FileUnit := []
  deriving Repr

namespace Resolver

def buildMethod (table : SymbolTable) (service : String) (method : Descriptor.Method) :
    Except Error Schema.Method := do
  let fullName := service ++ "." ++ method.name
  let input ← table.resolve method.input fullName
  let output ← table.resolve method.output fullName
  return {
    name := method.name
    fullName
    input := input.ref
    output := output.ref
    clientStreaming := method.clientStreaming
    serverStreaming := method.serverStreaming
    deprecated := method.deprecated }

def buildService (table : SymbolTable) (package : String) (service : Descriptor.Service) :
    Except Error Service := do
  let fullName := Schema.qualify package service.name
  let methods ← service.methods.mapM (buildMethod table fullName)
  return ⟨service.name, fullName, methods⟩

def buildFile (room : Room) (table : SymbolTable) (file : Descriptor.File) :
    Except Error FileUnit := do
  let messages ← buildMessages room table file [] file.messages
  let enums ← file.enums.mapM (buildEnum table file [])
  let services ← file.services.mapM (buildService table file.package)
  return {
    name := file.name
    package := file.package
    dependencies := file.dependencies
    messages
    enums
    services }

def insertFile (unit : FileUnit) : List FileUnit → List FileUnit
  | [] => [unit]
  | first :: rest =>
    if first.name = unit.name then unit :: rest else first :: insertFile unit rest

def hasFile (resolver : Resolver) (name : String) : Bool := resolver.files.any (·.name == name)

def find? (resolver : Resolver) (name : String) : Option FileUnit :=
  resolver.files.find? (·.name == name)

def get (resolver : Resolver) (name : String) : Except Error FileUnit :=
  match resolver.find? name with
  | some unit => .ok unit
  | none => .error (.unknownFile name)

/-- Adds a file where entries are followed as far as there is room. -/
def addIn (room : Room) (resolver : Resolver) (file : Descriptor.File) :
    Resolver × Except Error FileUnit :=
  match file.dependencies.find? (!resolver.hasFile ·) with
  | some dependency => (resolver, .error (.missingDependency dependency file.name))
  | none =>
    let symbols := resolver.symbols.extend (fileSymbols file)
    match buildFile room symbols file with
    | .error error => ({ resolver with symbols }, .error error)
    | .ok unit => (⟨symbols, insertFile unit resolver.files⟩, .ok unit)

def add (resolver : Resolver) (file : Descriptor.File) : Resolver × Except Error FileUnit :=
  resolver.addIn hostRoom file

def addAll (resolver : Resolver) :
    List Descriptor.File → List FileUnit × Except Error Resolver
  | [] => ([], .ok resolver)
  | file :: rest =>
    match resolver.add file with
    | (_, .error error) => ([], .error error)
    | (next, .ok unit) =>
      let (units, result) := next.addAll rest
      (unit :: units, result)

end Resolver

def resolve (files : List Descriptor.File) : Except Resolver.Error Resolver :=
  (Resolver.addAll {} files).2

end ProtoBindings
