import ProtoBindings.Unicode.Case

namespace ProtoBindings.Name

def upperFirst : List Char → List Char
  | [] => []
  | c :: rest => Unicode.upperChar c ++ rest

def pascalCase (s : String) : String :=
  String.ofList ((s.toList.splitOnP fun c => c = '_' || c = '-').flatMap upperFirst)

def isCapital (c : Char) : Bool := decide ('A' ≤ c) && decide (c ≤ 'Z')

def isSmall (c : Char) : Bool := decide ('a' ≤ c) && decide (c ≤ 'z')

def isSmallOrDigit (c : Char) : Bool := isSmall c || (decide ('0' ≤ c) && decide (c ≤ '9'))

/-- A run of two or more capitals with an underscore before the last one, if a small letter is next. -/
def splitRun (run : List Char) (next : Option Char) : List Char :=
  match run with
  | _ :: _ :: _ => if next.any isSmall then run.dropLast ++ '_' :: run.getLast?.toList else run
  | _ => run

def splitAcronyms : List Char → List Char
  | [] => []
  | c :: rest =>
    if isCapital c then
      splitRun (c :: rest.takeWhile isCapital) (rest.dropWhile isCapital).head? ++
        splitAcronyms (rest.dropWhile isCapital)
    else c :: splitAcronyms rest
termination_by cs => cs.length
decreasing_by
  · exact Nat.lt_succ_of_le (List.dropWhile_sublist isCapital).length_le
  · exact Nat.lt_succ_self _

/-- Puts an underscore before a capital that follows a small letter or a digit. -/
def splitWords : List Char → List Char
  | a :: b :: rest =>
    if isSmallOrDigit a && isCapital b then a :: '_' :: b :: splitWords rest
    else a :: splitWords (b :: rest)
  | cs => cs

def squeezeUnderscores : List Char → List Char
  | '_' :: '_' :: rest => squeezeUnderscores ('_' :: rest)
  | c :: rest => c :: squeezeUnderscores rest
  | [] => []

/-- `GetHTTPInfo` becomes `get_http_info`; a name in snake case stays as it is. -/
def snakeCase (s : String) : String :=
  Unicode.lower (String.ofList (squeezeUnderscores (splitWords (splitAcronyms s.toList))))

def upperSnakeCase (s : String) : String := Unicode.upper (snakeCase s)

end ProtoBindings.Name
