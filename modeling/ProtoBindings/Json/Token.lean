import ProtoBindings.Json.Value
import ProtoBindings.Number.Numeral

namespace ProtoBindings.Json

open Text (CodePoints)

inductive StringFault
  | unterminated
  | controlCharacter
  | escape
  | unicodeEscape
  deriving DecidableEq, Repr

inductive Token
  | openBrace
  | closeBrace
  | openBracket
  | closeBracket
  | colon
  | comma
  | scalar (value : Value)
  | string (codes : CodePoints)
  | badString (fault : StringFault) (offset : Nat)
  | longNumber (digits : Nat)
  | other

structure Lexeme where
  token : Token
  offset : Nat

/-- What a string holds and how many characters it takes, or a fault and its place in it. -/
abbrev StringRead := Except (StringFault × Nat) (CodePoints × Nat)

def StringRead.after (used : Nat) (codes : CodePoints) : StringRead → StringRead
  | .ok (later, more) => .ok (codes ++ later, used + more)
  | .error (fault, place) => .error (fault, used + place)

def hexDigit? (c : Char) : Option Nat :=
  if '0' ≤ c ∧ c ≤ '9' then some (c.toNat - '0'.toNat)
  else if 'a' ≤ c ∧ c ≤ 'f' then some (c.toNat - 'a'.toNat + 10)
  else if 'A' ≤ c ∧ c ≤ 'F' then some (c.toNat - 'A'.toNat + 10)
  else none

/-- The code of four hexadecimal digits that do not end the text. -/
def hexCode? (cs : List Char) : Option Nat :=
  if cs.length ≤ 4 then none
  else ((cs.take 4).mapM hexDigit?).map fun digits => digits.foldl (· * 16 + ·) 0

def escaped? : Char → Option Nat
  | '"' => some 0x22
  | '\\' => some 0x5C
  | '/' => some 0x2F
  | 'b' => some 8
  | 'f' => some 12
  | 'n' => some 10
  | 'r' => some 13
  | 't' => some 9
  | _ => none

def readString (cs : List Char) : StringRead :=
  match cs with
  | [] | ['\\'] => .error (.unterminated, 0)
  | '"' :: _ => .ok ([], 1)
  | '\\' :: 'u' :: rest =>
    match hexCode? rest with
    | some code => (readString (rest.drop 4)).after 6 [code]
    | none => .error (.unicodeEscape, 1)
  | '\\' :: c :: rest =>
    match escaped? c with
    | some code => (readString rest).after 2 [code]
    | none => .error (.escape, 0)
  | c :: rest =>
    if c.toNat < 0x20 then .error (.controlCharacter, 0) else (readString rest).after 1 [c.toNat]
termination_by cs.length
decreasing_by all_goals simp only [List.length_cons, List.length_drop]; omega

def wholePart : List Char → List Char
  | '0' :: _ => ['0']
  | cs => cs.takeWhile Number.isDigit

def fractionPart : List Char → List Char
  | '.' :: rest =>
    match rest.takeWhile Number.isDigit with
    | [] => []
    | digits => '.' :: digits
  | _ => []

def exponentPart : List Char → List Char
  | mark :: rest =>
    let (sign, body) := match rest with
      | '-' :: body => (['-'], body)
      | '+' :: body => (['+'], body)
      | _ => ([], rest)
    match body.takeWhile Number.isDigit with
    | [] => []
    | digits => if mark = 'e' ∨ mark = 'E' then mark :: sign ++ digits else []
  | [] => []

/-- The longest number that the characters start with, and how many of them it takes. -/
def readNumber? (cs : List Char) : Option (Token × Nat) :=
  let sign := if cs.head? = some '-' then ['-'] else []
  let body := cs.drop sign.length
  let whole := wholePart body
  let fraction := fractionPart (body.drop whole.length)
  let exponent := exponentPart (body.drop (whole.length + fraction.length))
  let all := sign ++ whole ++ fraction ++ exponent
  if whole = [] then none
  else if fraction ≠ [] ∨ exponent ≠ [] then
    (Number.real? all).map fun bits => (.scalar (.real bits), all.length)
  else if Number.maxDigits < whole.length then some (.longNumber whole.length, all.length)
  else (Number.signed? all).map fun n => (.scalar (.integer n), all.length)

def words : List (String × Value) :=
  let infinity := Number.double.infinity
  [("null", .null), ("true", .truth true), ("false", .truth false), ("NaN", .real (infinity + 1)),
    ("Infinity", .real infinity), ("-Infinity", .real (Number.double.withSign true infinity))]

def readWord? (cs : List Char) : Option (Token × Nat) :=
  (words.find? fun (word, _) => word.toList.isPrefixOf cs).map fun (word, value) =>
    (.scalar value, word.length)

def readToken (offset : Nat) (c : Char) (rest : List Char) : Token × Nat :=
  match c with
  | '\x7b' => (.openBrace, 0)
  | '\x7d' => (.closeBrace, 0)
  | '[' => (.openBracket, 0)
  | ']' => (.closeBracket, 0)
  | ':' => (.colon, 0)
  | ',' => (.comma, 0)
  | '"' =>
    match readString rest with
    | .ok (codes, used) => (.string codes.joinHalves, used)
    | .error (.unterminated, _) => (.badString .unterminated offset, rest.length)
    | .error (fault, place) => (.badString fault (offset + 1 + place), rest.length)
  | _ =>
    match (readWord? (c :: rest)).orElse fun _ => readNumber? (c :: rest) with
    | some (token, used) => (token, used - 1)
    | none => (.other, rest.length)

def isSpace (c : Char) : Bool := c == ' ' || c == '\t' || c == '\n' || c == '\r'

/-- The tokens in order; nothing is read after a character that starts none. -/
def lex (offset : Nat) : List Char → List Lexeme
  | [] => []
  | c :: rest =>
    if isSpace c then lex (offset + 1) rest
    else
      let (token, more) := readToken offset c rest
      ⟨token, offset⟩ :: lex (offset + 1 + more) (rest.drop more)
termination_by cs => cs.length
decreasing_by all_goals simp only [List.length_cons, List.length_drop]; omega

end ProtoBindings.Json
