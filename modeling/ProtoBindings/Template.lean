import ProtoBindings.Text.Quotation
import ProtoBindings.Unicode.Alphanumeric

namespace ProtoBindings

/-- A text in which `%s` stands for the converted expression, at most once. -/
inductive Template
  | constant (text : String)
  | around (before after : String)
  deriving DecidableEq, Repr

namespace Template

inductive Error
  | severalHoles (text : String)
  | otherPercent (text : String)
  deriving DecidableEq, Repr

def Error.message : Error → String
  | severalHoles text =>
    "Transform template " ++ Text.quotation text ++ " has more than one substitution point"
  | otherPercent text =>
    "Transform template " ++ Text.quotation text ++ " must use '%s' as its substitution point"

def ofText (text : String) : Except Error Template :=
  let before := text.toList.takeWhile (· ≠ '%')
  match text.toList.dropWhile (· ≠ '%') with
  | [] => .ok (constant text)
  | _ :: after =>
    if after.contains '%' then .error (.severalHoles text)
    else
      match after with
      | 's' :: after => .ok (around (String.ofList before) (String.ofList after))
      | _ => .error (.otherPercent text)

def hasHole : Template → Bool
  | constant _ => false
  | around _ _ => true

def isIdentity (template : Template) : Bool := template = around "" ""

def render (expr : String) : Template → String
  | constant text => text
  | around before after => before ++ expr ++ after

def isDottedWord (cs : List Char) : Bool :=
  !cs.isEmpty && cs.all fun c => c = '.' || Unicode.isWordChar c

/-- The function that a template calls on its hole and on nothing else, if it is that and no more;
    a line break may follow. -/
def callee? : Template → Option String
  | constant _ => none
  | around before after =>
    if before.endsWith "(" ∧ isDottedWord before.toList.dropLast ∧ (after = ")" ∨ after = ")\n") then
      some (String.ofList before.toList.dropLast)
    else none

def callable (template : Template) : String :=
  match template.callee? with
  | some callee => callee
  | none => "lambda value: " ++ template.render "value"

end Template

end ProtoBindings
