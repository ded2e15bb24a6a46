import ProtoBindings.Text.Basic

namespace ProtoBindings.CommandLine

structure FilePath where
  root : String := ""
  parts : List String := []
  deriving DecidableEq, Repr

namespace FilePath

def rootOf : List Char → String
  | '/' :: '/' :: '/' :: _ => "/"
  | '/' :: '/' :: _ => "//"
  | '/' :: _ => "/"
  | _ => ""

def ofText (text : String) : FilePath where
  root := rootOf text.toList
  parts := (Text.splitOn '/' text).filter fun part => part ≠ "" ∧ part ≠ "."

def toText (p : FilePath) : String :=
  if p.root = "" ∧ p.parts = [] then "." else p.root ++ "/".intercalate p.parts

/-- The second path from the place of the first. -/
def join (p q : FilePath) : FilePath := if q.root = "" then ⟨p.root, p.parts ++ q.parts⟩ else q

def parent (p : FilePath) : FilePath := ⟨p.root, p.parts.dropLast⟩

end FilePath

end ProtoBindings.CommandLine
