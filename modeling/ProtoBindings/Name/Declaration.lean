import ProtoBindings.Name.Case
import ProtoBindings.Name.Reserved
import ProtoBindings.Schema.Type

namespace ProtoBindings.Schema.TypeRef

open Name

def flatName (ref : TypeRef) : String := "".intercalate ref.path

def className (ref : TypeRef) : String := escape ref.flatName

def stem (ref : TypeRef) : String := snakeCase ref.flatName

def readerName (ref : TypeRef) : String := ref.stem ++ "_to_idiom"

def writerName (ref : TypeRef) : String := ref.stem ++ "_to_host"

def constantStem (ref : TypeRef) : String := upperSnakeCase ref.flatName

def hostPath (ref : TypeRef) : String := ".".intercalate ref.path

/-- The name of the sum type of a oneof. A name that the message's nested declarations take already
    gets a suffix. -/
def oneofTypeName (owner : TypeRef) (oneof : String) (taken : List String) : String :=
  let name := owner.flatName ++ pascalCase oneof
  if taken.contains name then name ++ "Oneof" else name

end ProtoBindings.Schema.TypeRef

namespace ProtoBindings.Name

def variantName (oneofType field : String) : String := oneofType ++ pascalCase field

end ProtoBindings.Name
