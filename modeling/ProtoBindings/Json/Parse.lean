import ProtoBindings.Json.Token

namespace ProtoBindings.Json

open Text (CodePoints)

inductive Fault
  | expectingValue
  | expectingName
  | expectingColon
  | expectingComma
  | extraData
  | byteOrderMark
  | string (fault : StringFault)
  deriving DecidableEq, Repr

def Fault.message : Fault → String
  | expectingValue => "Expecting value"
  | expectingName => "Expecting property name enclosed in double quotes"
  | expectingColon => "Expecting ':' delimiter"
  | expectingComma => "Expecting ',' delimiter"
  | extraData => "Extra data"
  | byteOrderMark => "Unexpected UTF-8 BOM (decode using utf-8-sig)"
  | string .unterminated => "Unterminated string starting at"
  | string .controlCharacter => "Invalid control character at"
  | string .escape => "Invalid \\escape"
  | string .unicodeEscape => "Invalid \\uXXXX escape"

inductive Enclosure
  | array
  | object
  deriving DecidableEq, Repr

def Enclosure.name : Enclosure → String
  | array => "array"
  | object => "object"

def maxNesting : Nat := 988

inductive Error
  | malformed (fault : Fault) (offset : Nat)
  | duplicateName (name : CodePoints)
  | longNumber (digits : Nat)
  | tooDeep (what : Enclosure)
  deriving DecidableEq, Repr

def place (source : String) (offset : Nat) : String :=
  let before := source.toList.take offset
  let line := before.count '\n' + 1
  let column := (before.reverse.takeWhile (· ≠ '\n')).length + 1
  "line " ++ toString line ++ " column " ++ toString column ++ " (char " ++ toString offset ++ ")"

def Error.message (source : String) : Error → String
  | malformed fault offset => fault.message ++ ": " ++ place source offset
  | duplicateName name => "Failed to load JSON: duplicate key " ++ name.toText ++ "."
  | longNumber digits => Number.tooManyDigits digits
  | tooDeep what => "maximum recursion depth exceeded while decoding a JSON " ++ what.name ++
      " from a unicode string"

abbrev Members := List (CodePoints × Value)

inductive Frame
  | items (done : List Value)
  | member (done : Members) (name : CodePoints)

inductive State
  | value (around : List Frame)
  | nextName (done : Members) (around : List Frame)
  | colon (done : Members) (name : CodePoints) (around : List Frame)
  | afterItem (done : List Value) (around : List Frame)
  | afterMember (done : Members) (around : List Frame)
  | finished (value : Value)

namespace State

def withValue (value : Value) : List Frame → State
  | [] => .finished value
  | .items done :: around => .afterItem (value :: done) around
  | .member done name :: around => .afterMember ((name, value) :: done) around

def repeated? : Members → Option CodePoints
  | [] => none
  | (name, _) :: done =>
    (repeated? done).orElse fun _ => if done.any (·.1 = name) then some name else none

/-- An object ends, with its members last first. Two of one name are refused. -/
def closeObject (done : Members) (around : List Frame) : Except Error State :=
  match repeated? done with
  | some name => .error (.duplicateName name)
  | none => .ok (withValue (.object done.reverse) around)

def expected : State → Fault
  | value _ => .expectingValue
  | nextName _ _ => .expectingName
  | colon _ _ _ => .expectingColon
  | afterItem _ _ | afterMember _ _ => .expectingComma
  | finished _ => .extraData

def enter (what : Enclosure) (around : List Frame) : Except Error Unit :=
  if around.length < maxNesting then .ok () else .error (.tooDeep what)

def step (state : State) (lexeme : Lexeme) : Except Error State :=
  match state, lexeme.token with
  | .value around, .scalar v => .ok (withValue v around)
  | .value around, .string codes => .ok (withValue (.text codes) around)
  | .value around, .openBracket => do
    enter .array around
    return .value (.items [] :: around)
  | .value around, .openBrace => do
    enter .object around
    return .nextName [] around
  | .value (.items [] :: around), .closeBracket => .ok (withValue (.array []) around)
  | .value _, .badString fault offset => .error (.malformed (.string fault) offset)
  | .value _, .longNumber digits => .error (.longNumber digits)
  | .nextName [] around, .closeBrace => closeObject [] around
  | .nextName done around, .string codes => .ok (.colon done codes around)
  | .nextName _ _, .badString fault offset => .error (.malformed (.string fault) offset)
  | .colon done name around, .colon => .ok (.value (.member done name :: around))
  | .afterItem done around, .comma => .ok (.value (.items done :: around))
  | .afterItem done around, .closeBracket => .ok (withValue (.array done.reverse) around)
  | .afterMember done around, .comma => .ok (.nextName done around)
  | .afterMember done around, .closeBrace => closeObject done around
  | state, _ => .error (.malformed state.expected lexeme.offset)

end State

def parse (source : String) : Except Error Value := do
  let cs := source.toList
  if cs.head? = some '\uFEFF' then throw (.malformed .byteOrderMark 0)
  match ← (lex 0 cs).foldlM State.step (.value []) with
  | .finished value => return value
  | state => throw (.malformed state.expected cs.length)

end ProtoBindings.Json
