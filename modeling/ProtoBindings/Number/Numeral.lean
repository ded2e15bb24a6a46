import ProtoBindings.Number.Real
import ProtoBindings.Number.Integer
import ProtoBindings.Text.CodePoints
import ProtoBindings.Unicode.Basic

namespace ProtoBindings.Number

def isDigit (c : Char) : Bool := decide ('0' ≤ c) && decide (c ≤ '9')

/-- The blanks that may stand around a numeral; of the ASCII control characters only five. -/
def isNumeralBlank (c : Char) : Bool :=
  c == ' ' || (decide ('\t' ≤ c) && decide (c ≤ '\r')) || (decide (128 ≤ c.toNat) && Unicode.isBlank c)

def plainDigit (c : Char) : Char := ((Unicode.digit? c).map Nat.digitChar).getD c

def joinDigits : List Char → List Char
  | a :: '_' :: b :: rest =>
    if isDigit a && isDigit b then a :: joinDigits (b :: rest) else a :: joinDigits ('_' :: b :: rest)
  | a :: rest => a :: joinDigits rest
  | [] => []

def plainNumeral (cs : List Char) : List Char :=
  let inner := ((cs.dropWhile isNumeralBlank).reverse.dropWhile isNumeralBlank).reverse
  joinDigits (inner.map plainDigit)

def takeSign : List Char → Bool × List Char
  | '-' :: rest => (true, rest)
  | '+' :: rest => (false, rest)
  | cs => (false, cs)

def digitsValue (digits : List Char) : Nat :=
  digits.foldl (fun n c => n * 10 + (c.toNat - '0'.toNat)) 0

def digits? (cs : List Char) : Option Nat :=
  if cs ≠ [] ∧ cs.all isDigit then some (digitsValue cs) else none

def signed? (cs : List Char) : Option Int :=
  let (negative, body) := takeSign cs
  (digits? body).map fun n => if negative then -(n : Int) else n

def integer? (cs : List Char) : Option Int := signed? (plainNumeral cs)

def decimal? (cs : List Char) : Option Decimal :=
  let whole := cs.takeWhile isDigit
  let afterWhole := cs.dropWhile isDigit
  let (fraction, rest) := match afterWhole with
    | '.' :: tail => (tail.takeWhile isDigit, tail.dropWhile isDigit)
    | _ => ([], afterWhole)
  let exponent := match rest with
    | [] => some 0
    | mark :: tail => if mark = 'e' ∨ mark = 'E' then signed? tail else none
  if whole = [] ∧ fraction = [] then none
  else exponent.map fun e => ⟨digitsValue (whole ++ fraction), e - fraction.length⟩

def named? (cs : List Char) : Option Nat :=
  match String.ofList (cs.map Char.toLower) with
  | "inf" | "infinity" => some double.infinity
  | "nan" => some (double.infinity + double.step / 2)
  | _ => none

def real? (cs : List Char) : Option Nat :=
  let (negative, body) := takeSign (plainNumeral cs)
  ((named? body).orElse fun _ => (decimal? body).map Decimal.toDouble).map
    (double.withSign negative)

inductive NumeralError
  | integer (text : Text.CodePoints)
  | tooLong (digits : Nat)
  | real (text : Text.CodePoints)
  deriving DecidableEq, Repr

def NumeralError.message : NumeralError → String
  | integer text => "invalid literal for int() with base 10: " ++
      String.ofList (text.quotation.toList.take 200)
  | tooLong digits => tooManyDigits digits
  | real text => "could not convert string to float: " ++ text.quotation

/-- The number of digits that a numeral starts with. None are counted where an underscore is left
    after them. -/
def leadingDigits (numeral : List Char) : Nat :=
  let body := (takeSign numeral).2
  let digits := body.takeWhile isDigit
  if (body.drop digits.length).head? = some '_' then 0 else digits.length

def readInteger (text : Text.CodePoints) : Except NumeralError Int :=
  let digits := leadingDigits (plainNumeral text.chars)
  if maxDigits < digits then .error (.tooLong digits)
  else
    match integer? text.chars with
    | some n => .ok n
    | none => .error (.integer text)

def readReal (text : Text.CodePoints) : Except NumeralError Nat :=
  match real? text.chars with
  | some bits => .ok bits
  | none => .error (.real text)

end ProtoBindings.Number
