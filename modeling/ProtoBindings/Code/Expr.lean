import ProtoBindings.Text.Quotation

namespace ProtoBindings.Code

inductive Literal
  | none
  | false
  | zero
  | zeroFloat
  | emptyString
  | emptyBytes
  deriving DecidableEq, Repr

def Literal.text : Literal → String
  | none => "None"
  | false => "False"
  | zero => "0"
  | zeroFloat => "0.0"
  | emptyString => "\"\""
  | emptyBytes => "b\"\""

mutual

/-- The identifiers bound inside comprehensions and lambdas are fixed: `item`, `key` and `value`. -/
inductive Expr
  | name (id : String)
  | literal (value : Literal)
  | string (value : String)
  | number (value : Int)
  | attribute (target : Expr) (id : String)
  | item (target : Expr) (keys : Arguments)
  | call (callee : Expr) (arguments : Arguments)
  | list (elements : Arguments)
  | singleton (element : Expr)
  | conditional (value test otherwise : Expr)
  | isNone (operand : Expr)
  | isNotNone (operand : Expr)
  | equals (left right : Expr)
  | await (operand : Expr)
  | each (element source : Expr)
  | dictEach (value source : Expr)
  /-- A function of `value`. -/
  | lambda (body : Expr)
  | showing (before : String) (shown : Expr)
  deriving DecidableEq, Repr

inductive Arguments
  | nil
  | positional (value : Expr) (rest : Arguments)
  | keyword (name : String) (value : Expr) (rest : Arguments)
  deriving DecidableEq, Repr

end

mutual

def Expr.text : Expr → String
  | .name id => id
  | .literal value => value.text
  | .string value => Text.literal value
  | .number value => toString value
  | .attribute target id => target.text ++ "." ++ id
  | .item target keys => target.text ++ "[" ++ ", ".intercalate keys.texts ++ "]"
  | .call callee arguments => callee.text ++ "(" ++ ", ".intercalate arguments.texts ++ ")"
  | .list elements => "[" ++ ", ".intercalate elements.texts ++ "]"
  | .singleton element => "(" ++ element.text ++ ",)"
  | .conditional value test otherwise =>
    value.text ++ " if " ++ test.text ++ " else " ++ otherwise.text
  | .isNone operand => operand.text ++ " is None"
  | .isNotNone operand => operand.text ++ " is not None"
  | .equals left right => left.text ++ " == " ++ right.text
  | .await operand => "await " ++ operand.text
  | .each element source => element.text ++ " for item in " ++ source.text
  | .dictEach value source =>
    "\x7bkey: " ++ value.text ++ " for key, item in " ++ source.text ++ ".items()\x7d"
  | .lambda body => "lambda value: " ++ body.text
  | .showing before shown => "f\"" ++ before ++ "\x7b" ++ shown.text ++ "!r\x7d\""

def Arguments.texts : Arguments → List String
  | .nil => []
  | .positional value rest => value.text :: rest.texts
  | .keyword name value rest => (name ++ "=" ++ value.text) :: rest.texts

end

namespace Arguments

def ofList : List Expr → Arguments
  | [] => nil
  | e :: rest => positional e (ofList rest)

def ofKeywords : List (String × Expr) → Arguments
  | [] => nil
  | (name, e) :: rest => keyword name e (ofKeywords rest)

end Arguments

namespace Expr

def apply (callee : Expr) (arguments : List Expr) : Expr := call callee (.ofList arguments)

def generic (type : String) (parameters : List Expr) : Expr :=
  item (name type) (.ofList parameters)

def path (start : Expr) (ids : List String) : Expr := ids.foldl Expr.attribute start

def none : Expr := literal .none

end Expr

end ProtoBindings.Code
