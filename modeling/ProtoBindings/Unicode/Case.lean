import ProtoBindings.Unicode.CaseTable

namespace ProtoBindings.Unicode

def CaseRun.holds (run : CaseRun) (code : Nat) : Bool :=
  decide (run.low ≤ code) && decide (code ≤ run.high) && (code - run.low) % run.stride == 0

def shiftCode (runs : List CaseRun) (code : Nat) : Nat :=
  match runs.find? (·.holds code) with
  | some run => (code + run.shift).toNat
  | none => code

def mapCode (runs : List CaseRun) (expansions : List (Nat × List Nat)) (code : Nat) : List Char :=
  match expansions.lookup code with
  | some codes => codes.map Char.ofNat
  | none => [Char.ofNat (shiftCode runs code)]

def lowerChar (c : Char) : List Char :=
  if c.toNat < 128 then [c.toLower] else mapCode lowerRuns lowerExpansions c.toNat

def upperChar (c : Char) : List Char :=
  if c.toNat < 128 then [c.toUpper] else mapCode upperRuns upperExpansions c.toNat

def facesCased (context : List Char) : Bool :=
  match context.dropWhile caseIgnorable.contains with
  | [] => false
  | c :: _ => cased.contains c

/-- `before` holds the characters already passed, the nearest first. -/
def lowerFrom (before : List Char) : List Char → List Char
  | [] => []
  | c :: rest =>
    (if c = 'Σ' then
      [if facesCased before && !facesCased rest then 'ς' else 'σ']
    else lowerChar c) ++ lowerFrom (c :: before) rest

def lower (s : String) : String := String.ofList (lowerFrom [] s.toList)

def upper (s : String) : String := String.ofList (s.toList.flatMap upperChar)

end ProtoBindings.Unicode
