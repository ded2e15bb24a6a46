import ProtoBindings.Code.Expr
import ProtoBindings.Code.Layout

namespace ProtoBindings.Code

inductive Head
  | ifTest (test : Expr)
  | elifTest (test : Expr)
  | otherwise
  | eachEntry (source : Expr)
  | eachResponse (source : Expr)
  deriving DecidableEq, Repr

def Head.text : Head → String
  | ifTest test => "if " ++ test.text
  | elifTest test => "elif " ++ test.text
  | otherwise => "else"
  | eachEntry source => "for key, item in " ++ source.text ++ ".items()"
  | eachResponse source => "async for response in " ++ source.text

inductive Stmt
  | expr (e : Expr)
  | assign (target value : Expr)
  | assignCall (target callee : Expr) (arguments : Arguments)
  | leave
  | ret (value : Expr)
  | retCall (callee : Expr) (arguments : Arguments)
  | retTable (callee first : Expr) (entries : List (String × Expr))
  | yield (value : Expr)
  | raise (error : Expr)
  | compound (head : Head) (body : List Stmt)
  deriving Repr

mutual

def Stmt.lines : Stmt → List String
  | .expr e => [e.text]
  | .assign target value => [target.text ++ " = " ++ value.text]
  | .assignCall target callee arguments =>
    (target.text ++ " = " ++ callee.text ++ "(") ::
      arguments.texts.map (indent ++ · ++ ",") ++ [")"]
  | .leave => ["return"]
  | .ret value => ["return " ++ value.text]
  | .retCall callee arguments => callLines "return " callee.text arguments.texts
  | .retTable callee first entries =>
    ["return " ++ callee.text ++ "(", indent ++ first.text ++ ",", indent ++ "\x7b"] ++
      entries.map (fun (key, value) =>
        indent ++ indent ++ Text.literal key ++ ": " ++ value.text ++ ",") ++
      [indent ++ "\x7d,", ")"]
  | .yield value => ["yield " ++ value.text]
  | .raise error => ["raise " ++ error.text]
  | .compound head body => (head.text ++ ":") :: padLines indent (blockLines body)

def blockLines : List Stmt → List String
  | [] => []
  | s :: rest => s.lines ++ blockLines rest

end

end ProtoBindings.Code
