import ProtoBindings.Code.Expr
import ProtoBindings.Template

namespace ProtoBindings

open Code (Expr)

inductive Conversion
  | identity
  | content
  | constant (result : Expr)
  | call (function : Expr)
  deriving DecidableEq, Repr

namespace Conversion

def templateText : Conversion → String
  | identity => "%s"
  | content => "%s.value"
  | constant result => result.text
  | call function => function.text ++ "(%s)"

def template (c : Conversion) : Except Template.Error Template := Template.ofText c.templateText

def checked (c : Conversion) : Except Template.Error Conversion := c.template.map fun _ => c

def apply (e : Expr) : Conversion → Expr
  | identity => e
  | content => e.attribute "value"
  | constant result => result
  | call function => function.apply [e]

def isIdentity (c : Conversion) : Bool := c = identity

def hasHole : Conversion → Bool
  | constant _ => false
  | _ => true

/-- The conversion as an expression for a function: the called one where it has a plain name. -/
def callable : Conversion → Expr
  | call function =>
    if Template.isDottedWord function.text.toList then function
    else .lambda (function.apply [.name "value"])
  | c => .lambda (c.apply (.name "value"))

end Conversion

end ProtoBindings
