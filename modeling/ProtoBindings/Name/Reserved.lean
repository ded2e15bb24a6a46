namespace ProtoBindings.Name

def keywords : List String :=
  ["False", "None", "True", "and", "as", "assert", "async", "await", "break", "class", "continue",
    "def", "del", "elif", "else", "except", "finally", "for", "from", "global", "if", "import", "in",
    "is", "lambda", "nonlocal", "not", "or", "pass", "raise", "return", "try", "while", "with",
    "yield"]

/-- Names that the defaults in a class body evaluate, as in `dataclasses.field(default_factory=list)`. -/
def classBodyNames : List String := ["dataclasses", "dict", "list"]

def isKeyword (name : String) : Bool := keywords.contains name

def isReserved (name : String) : Bool := isKeyword name || classBodyNames.contains name

/-- The name, with an underscore behind it where it is reserved. -/
def escape (name : String) : String := if isReserved name then name ++ "_" else name

end ProtoBindings.Name
