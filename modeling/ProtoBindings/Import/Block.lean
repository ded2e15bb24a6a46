import ProtoBindings.Import.Basic

namespace ProtoBindings.Import

def mergedName? (i : Import) : Option String :=
  if i.module = "typing" ∧ i.localName.filter (· ≠ "") = none then i.name.filter (· ≠ "") else none

/-- Order by module, then name, then alias; a missing one counts as empty. -/
def before (i j : Import) : Bool :=
  let key (k : Import) := (k.module, k.name.getD "", k.localName.getD "")
  let (m, n, a) := key i
  let (m', n', a') := key j
  m < m' || (m == m' && (n < n' || (n == n' && a ≤ a')))

/-- A line of the block with what it is sorted by: whether it imports names of a module, and the
    word after the first. -/
structure Line where
  isFrom : Bool
  subject : String
  text : String
  deriving DecidableEq, Repr

def leadingWords (text : String) : String × String :=
  let start := text.toList.dropWhile Unicode.isBlank
  let rest := (start.dropWhile (!Unicode.isBlank ·)).dropWhile Unicode.isBlank
  (String.ofList (start.takeWhile (!Unicode.isBlank ·)),
    String.ofList (rest.takeWhile (!Unicode.isBlank ·)))

def Line.ofText (text : String) : Line :=
  let (first, second) := leadingWords text
  ⟨first == "from", second, text⟩

def Line.before (l m : Line) : Bool :=
  (!l.isFrom && m.isFrom) || (l.isFrom == m.isFrom && l.subject ≤ m.subject)

def sortLines (lines : List String) : List String :=
  ((lines.map Line.ofText).mergeSort Line.before).map (·.text)

def mergedLine (imports : List Import) : List String :=
  match (imports.filterMap mergedName?).eraseDups.mergeSort (· ≤ ·) with
  | [] => []
  | names => ["from typing import " ++ ", ".intercalate names]

def block (imports : List Import) : List String :=
  let unique := imports.eraseDups.mergeSort before
  let rest := unique.filter (·.mergedName?.isNone)
  let standard := (rest.filter (·.isStandard)).map (·.render) ++ mergedLine imports
  let others := (rest.filter (!·.isStandard)).map (·.render)
  sortLines standard ++ (if standard ≠ [] ∧ others ≠ [] then [""] else []) ++ sortLines others

def isNameless (i : Import) : Bool :=
  i.mergedName?.isNone && (leadingWords i.render).2 == ""

def block? (imports : List Import) : Option (List String) :=
  if imports.any isNameless then none else some (block imports)

end ProtoBindings.Import
