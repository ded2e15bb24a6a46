import ProtoBindings.Unicode.Basic

namespace ProtoBindings.Text

def splitOn (separator : Char) (s : String) : List String :=
  (s.toList.splitOn separator).map String.ofList

def dropBlanksAround (cs : List Char) : List Char :=
  ((cs.dropWhile Unicode.isBlank).reverse.dropWhile Unicode.isBlank).reverse

def trim (s : String) : String := String.ofList (dropBlanksAround s.toList)

def cut (separator : Char) (s : String) : String × String :=
  (String.ofList (s.toList.takeWhile (· ≠ separator)),
    String.ofList ((s.toList.dropWhile (· ≠ separator)).drop 1))

def startsWith (s start : String) : Bool := start.toList.isPrefixOf s.toList

def endsWith (s ending : String) : Bool := ending.toList.isSuffixOf s.toList

def dropEnding (ending s : String) : String :=
  if endsWith s ending then String.ofList (s.toList.take (s.toList.length - ending.toList.length))
  else s

def replaceChar (old new : Char) (s : String) : String := s.map fun c => if c = old then new else c

def dropLeadingDots (s : String) : String := String.ofList (s.toList.dropWhile (· = '.'))

/-- The characters that end a line. A carriage return and a line feed after it end one together. -/
def lineBreaks : List Char :=
  ['\n', '\r', '\x0b', '\x0c', '\x1c', '\x1d', '\x1e', '\u0085', '\u2028', '\u2029']

def linesFrom (current : List Char) : List Char → List String
  | [] => if current = [] then [] else [String.ofList current.reverse]
  | '\r' :: '\n' :: rest => String.ofList current.reverse :: linesFrom [] rest
  | c :: rest =>
    if lineBreaks.contains c then String.ofList current.reverse :: linesFrom [] rest
    else linesFrom (c :: current) rest

def printedLines (printed : List String) : List String :=
  linesFrom [] (printed.flatMap fun text => text.toList ++ ['\n'])

end ProtoBindings.Text
