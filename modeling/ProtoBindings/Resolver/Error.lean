import ProtoBindings.Text.Quotation

namespace ProtoBindings.Resolver

inductive EntryPart
  | key
  | value
  deriving DecidableEq, Repr

inductive Error
  | missingDependency (dependency file : String)
  | unknownFile (name : String)
  | undefinedType (typeName context : String)
  | missingEntryField (number : Nat)
  | oneofOutOfRange
  | undeclared (fullName : String)
  /-- Map entries have map entries as keys or values, deeper than they are followed. The innermost step
      comes first. -/
  | deepMapEntry (steps : List EntryPart)
  deriving DecidableEq, Repr

def Error.message : Error → String
  | missingDependency dependency file =>
    "Dependency " ++ dependency ++ " not found for file " ++ file
  | unknownFile name => "File " ++ name ++ " has not been resolved"
  | undefinedType typeName context =>
    "Type " ++ typeName ++ " referenced by " ++ context ++ " is not defined"
  | missingEntryField number => toString number
  | oneofOutOfRange => "list index out of range"
  | undeclared fullName => Text.quotation fullName
  | deepMapEntry steps =>
    "maximum recursion depth exceeded " ++
      if EntryPart.value ∈ steps.take 3 then "while calling a Python object" else "in comparison"

def Error.inPart (part : EntryPart) : Error → Error
  | deepMapEntry steps => .deepMapEntry (steps ++ [part])
  | error => error

end ProtoBindings.Resolver
