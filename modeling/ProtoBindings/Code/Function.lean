import ProtoBindings.Code.Stmt
import ProtoBindings.Import.Basic

namespace ProtoBindings.Code

/-- A parameter, or the mark after which parameters are given by name only. -/
inductive Param
  | named (name : String) (type : Option Expr) (default : Option Expr)
  | byNameOnly
  deriving DecidableEq, Repr

namespace Param

def self : Param := named "self" none none

def typed (name : String) (type : Expr) : Param := named name (some type) none

def text : Param → String
  | named name type default =>
    name ++ (type.map (": " ++ ·.text)).getD "" ++ (default.map (" = " ++ ·.text)).getD ""
  | byNameOnly => "*"

end Param

structure Function where
  name : String
  params : List Param
  returns : Expr
  body : List Stmt
  doc : Option String := none
  isAsync : Bool := false
  imports : List Import := []
  deriving Repr

namespace Function

def toText (f : Function) : FunctionText where
  name := f.name
  params := f.params.map (·.text)
  returns := some f.returns.text
  body := blockLines f.body
  doc := f.doc
  isAsync := f.isAsync

def lines (f : Function) (padding : String) : List String := f.toText.lines padding

end Function

end ProtoBindings.Code
