import ProtoBindings.CommandLine.FilePath
import ProtoBindings.Text.Quotation
import ProtoBindings.Wire.Varint

namespace ProtoBindings.CommandLine

open Wire (Bytes)

inductive FileError
  | notFound (path : String)
  | exists (path : String)
  | notDirectory (path : String)
  | isDirectory (path : String)
  | nameTooLong (path : String)
  | nullCharacter
  | tooManyMissing
  deriving DecidableEq, Repr

def FileError.message : FileError → String
  | notFound path => "[Errno 2] No such file or directory: " ++ Text.quotation path
  | .exists path => "[Errno 17] File exists: " ++ Text.quotation path
  | notDirectory path => "[Errno 20] Not a directory: " ++ Text.quotation path
  | isDirectory path => "[Errno 21] Is a directory: " ++ Text.quotation path
  | nameTooLong path => "[Errno 36] File name too long: " ++ Text.quotation path
  | nullCharacter => "embedded null byte"
  | tooManyMissing => "maximum recursion depth exceeded while calling a Python object"

inductive Node
  | file (content : Bytes)
  | directory
  deriving DecidableEq, Repr

abbrev Place := List String

/-- The directory above a place. That of the root is the root, and above the working directory there
    is always one more. -/
def Place.above (place : Place) : Place :=
  if place.all (· = "..") then place ++ [".."]
  else if place.length = 1 ∧ place.all (Text.startsWith · "/") then place
  else place.dropLast

def Place.isInside (place : Place) : Bool :=
  !place.head?.any fun part => part = ".." || Text.startsWith part "/"

def Place.toText : Place → String
  | [] => "."
  | first :: rest =>
    if Text.startsWith first "/" then first ++ "/".intercalate rest
    else "/".intercalate (first :: rest)

structure FileTree where
  nodes : List (Place × Node) := []
  deriving DecidableEq, Repr

namespace FileTree

/-- Where a path leads. A missing last part leaves the place where it would be. -/
inductive Target
  | found (place : Place) (node : Node)
  | vacant (place : Place)
  | missingParent
  | fileParent
  | tooLong
  | nullCharacter
  deriving DecidableEq, Repr

/-- What is found everywhere: the working directory and those above it, the root, and in it the place
    for temporary files and that of the devices, of which the null device reads as an empty file. -/
def standardNode? (place : Place) : Option Node :=
  match place with
  | ["/"] | ["//"] | ["/", "tmp"] | ["/", "dev"] => some .directory
  | ["/", "dev", "null"] => some (.file [])
  | _ => if place.all (· = "..") then some .directory else none

def at? (tree : FileTree) (place : Place) : Option Node :=
  (standardNode? place).orElse fun _ => tree.nodes.lookup place

/-- Sizes count bytes. A name may have 255 and a whole path less than 4096. -/
def maxNameSize : Nat := 255

def pathSizeLimit : Nat := 4096

def follow (tree : FileTree) (place : Place) (node : Node) : List String → Target
  | [] => .found place node
  | part :: rest =>
    match node with
    | .file _ => .fileParent
    | .directory =>
      if part = "." then tree.follow place node rest
      else if maxNameSize < part.utf8ByteSize then .tooLong
      else
        let next := if part = ".." then place.above else place ++ [part]
        match tree.at? next with
        | some node => tree.follow next node rest
        | none => if rest = [] then .vacant next else .missingParent

def writtenParts (path : String) : List String :=
  let parts := (Text.splitOn '/' path).filter (· ≠ "")
  let parts := if Text.endsWith path "/" then parts ++ ["."] else parts
  let root := FilePath.rootOf path.toList
  if root = "" then parts else root :: parts

@[irreducible] def target (tree : FileTree) (path : String) : Target :=
  if path.toList.contains '\x00' then .nullCharacter
  else if pathSizeLimit ≤ path.utf8ByteSize then .tooLong
  else tree.follow [] .directory (writtenParts path)

def put (tree : FileTree) (place : Place) (node : Node) : FileTree :=
  ⟨(place, node) :: tree.nodes.filter (·.1 ≠ place)⟩

def read (tree : FileTree) (path : String) : Except FileError Bytes :=
  if path = "" then .error (.notFound path)
  else
    match tree.target path with
    | .found _ (.file content) => .ok content
    | .found _ .directory => .error (.isDirectory path)
    | .vacant _ | .missingParent => .error (.notFound path)
    | .fileParent => .error (.notDirectory path)
    | .tooLong => .error (.nameTooLong path)
    | .nullCharacter => .error .nullCharacter

def makeOne (tree : FileTree) (p : FilePath) : Except FileError FileTree :=
  match tree.target p.toText with
  | .found _ .directory => .ok tree
  | .found _ (.file _) => .error (.exists p.toText)
  | .vacant place => .ok (tree.put place .directory)
  | .missingParent => .error (.notFound p.toText)
  | .fileParent => .error (.notDirectory p.toText)
  | .tooLong => .error (.nameTooLong p.toText)
  | .nullCharacter => .error .nullCharacter

/-- Makes a directory and up to `most` directories with it, those that are missing above it. -/
def makeAll (tree : FileTree) : (most : Nat) → FilePath → Except FileError FileTree
  | 0, _ => .error .tooManyMissing
  | most + 1, p =>
    match tree.target p.toText with
    | .missingParent => do (← tree.makeAll most p.parent).makeOne p
    | _ => tree.makeOne p

def maxMissing : Nat := 985

def makeDirectories (tree : FileTree) (p : FilePath) : Except FileError FileTree :=
  tree.makeAll maxMissing p

def write (tree : FileTree) (p : FilePath) (content : Bytes) : Except FileError FileTree :=
  match tree.target p.toText with
  | .found place (.file _) | .vacant place => .ok (tree.put place (.file content))
  | .found _ .directory => .error (.isDirectory p.toText)
  | .missingParent => .error (.notFound p.toText)
  | .fileParent => .error (.notDirectory p.toText)
  | .tooLong => .error (.nameTooLong p.toText)
  | .nullCharacter => .error .nullCharacter

def insert (tree : FileTree) (path : String) (content : Bytes) : FileTree :=
  let p := FilePath.ofText path
  match tree.makeDirectories p.parent with
  | .ok made => (made.write p content).toOption.getD tree
  | .error _ => tree

def files (tree : FileTree) : List (Place × Bytes) :=
  tree.nodes.filterMap fun
    | (place, .file content) => some (place, content)
    | (_, .directory) => none

end FileTree

end ProtoBindings.CommandLine
