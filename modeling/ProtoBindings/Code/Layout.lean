namespace ProtoBindings.Code

def maxLine : Nat := 100

def indent : String := "    "

def padLines (padding : String) (lines : List String) : List String :=
  lines.map fun line => if line = "" then "" else padding ++ line

def indentLines (lines : List String) (depth : Nat) : List String :=
  padLines (String.ofList (List.replicate (4 * depth) ' ')) lines

def joinLines (lines : List String) : String := "\n".intercalate lines

/-- A call after the text `lead`, with an argument a line once it is too long for one level of
    indentation. -/
def callLines (lead callee : String) (arguments : List String) : List String :=
  let single := lead ++ callee ++ "(" ++ ", ".intercalate arguments ++ ")"
  if single.length + indent.length ≤ maxLine ∨ arguments = [] then [single]
  else (lead ++ callee ++ "(") :: arguments.map (indent ++ · ++ ",") ++ [")"]

structure FunctionText where
  name : String
  params : List String := []
  returns : Option String := none
  body : List String := []
  doc : Option String := none
  isAsync : Bool := false
  decorators : List String := []
  deriving DecidableEq, Repr

namespace FunctionText

def nonempty (text : Option String) : Option String := text.filter (· ≠ "")

def head (f : FunctionText) (padding : String) : String :=
  padding ++ (if f.isAsync then "async def" else "def") ++ " " ++ f.name ++ "("

def tail (f : FunctionText) : String :=
  match nonempty f.returns with
  | some type => ") -> " ++ type ++ ":"
  | none => "):"

/-- The line that opens the function, or one line for each parameter if that one is too long. -/
def signature (f : FunctionText) (padding : String) : List String :=
  let single := f.head padding ++ ", ".intercalate f.params ++ f.tail
  if single.length ≤ maxLine ∨ f.params = [] then [single]
  else f.head padding :: f.params.map (padding ++ indent ++ · ++ ",") ++ [padding ++ f.tail]

/-- A documentation text between triple quotes; the closing ones get a line of their own after a
    text of several lines. -/
def docLines (padding doc : String) : List String :=
  match (doc.toList.splitOn '\n').map String.ofList with
  | [] => []
  | [line] => [padding ++ "\"\"\"" ++ line ++ "\"\"\""]
  | first :: rest =>
    (padding ++ "\"\"\"" ++ first) :: padLines padding rest ++ [padding ++ "\"\"\""]

def lines (f : FunctionText) (padding : String) : List String :=
  let inner := padding ++ indent
  f.decorators.map (padding ++ ·) ++ f.signature padding ++
    ((nonempty f.doc).map (docLines inner)).getD [] ++
    padLines inner (if f.body = [] then ["pass"] else f.body)

def render (f : FunctionText) (padding : String) : String := joinLines (f.lines padding)

end FunctionText

end ProtoBindings.Code
