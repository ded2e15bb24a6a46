import ProtoBindings.Text.Basic

namespace ProtoBindings.Name

/-- The host module of a schema file: `acme/people/v1/person-info.proto` has
    `acme.people.v1.person_info_pb2`. -/
def hostModule (file : String) : String :=
  Text.replaceChar '/' '.' (Text.replaceChar '-' '_' (Text.dropEnding ".proto" file)) ++ "_pb2"

def baseName (path : String) : String :=
  String.ofList (path.toList.reverse.takeWhile (· ≠ '/')).reverse

def fileStem (file : String) : String :=
  Text.replaceChar '.' '_' (Text.replaceChar '-' '_' (Text.dropEnding ".proto" (baseName file)))

def components (path : String) : List String := (Text.splitOn '.' path).filter (· ≠ "")

def generatedModule (suffix package file : String) (packagePrefix : Option String) : String :=
  ".".intercalate
    (components (packagePrefix.getD "") ++ components package ++ [fileStem file ++ suffix])

def valueModule (package file : String) (packagePrefix : Option String) : String :=
  generatedModule "_idiom" package file packagePrefix

/-- The module that holds the service bindings of a schema file. -/
def serviceModule (package file : String) (packagePrefix : Option String) : String :=
  generatedModule "_idiom_grpc" package file packagePrefix

def outputPath (module_ : String) : String := Text.replaceChar '.' '/' module_ ++ ".py"

def moduleAlias (module_ : String) : String := "_" ++ Text.replaceChar '.' '_' module_

end ProtoBindings.Name
