import ProtoBindings.Text.Basic
import ProtoBindings.Text.Quotation

namespace ProtoBindings.Plugin

/-- Keys with their values, in the order in which the keys first came. -/
abbrev Options := List (String × String)

namespace Options

/-- A key that is there already keeps its place. -/
def insert (key value : String) : Options → Options
  | [] => [(key, value)]
  | (k, v) :: rest => if k = key then (k, value) :: rest else (k, v) :: insert key value rest

def get? (key : String) (options : Options) : Option String := options.lookup key

end Options

inductive Item
  | blank
  | malformed (text : String)
  | option (key value : String)
  deriving DecidableEq, Repr

def Item.ofText (text : String) : Item :=
  let text := Text.trim text
  let (key, value) := Text.cut '=' text
  if text = "" then blank
  else if Text.trim key = "" then malformed text
  else option (Text.trim key) (Text.trim value)

/-- The options of a list of items, or the first item that has no key. -/
def collect (options : Options) : List Item → Except String Options
  | [] => .ok options
  | .blank :: rest => collect options rest
  | .malformed text :: _ => .error text
  | .option key value :: rest => collect (options.insert key value) rest

def parseParameter (parameter : String) : Except String Options :=
  collect [] ((Text.splitOn ',' parameter).map Item.ofText)

end ProtoBindings.Plugin
