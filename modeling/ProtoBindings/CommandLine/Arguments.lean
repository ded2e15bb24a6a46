import ProtoBindings.Text.Basic
import ProtoBindings.Unicode.Basic

namespace ProtoBindings.CommandLine

inductive Flag
  | help
  | descriptorSet
  | proto
  | include
  | out
  | file
  | parameter
  deriving DecidableEq, Repr

def flagNames : List (String × Flag) :=
  [("-h", .help), ("--help", .help), ("--descriptor-set", .descriptorSet), ("--proto", .proto),
    ("-I", .include), ("--include", .include), ("--out", .out), ("--file", .file),
    ("--parameter", .parameter)]

inductive Argument
  | value (text : String)
  | flag (flag : Flag) (value : Option String)
  | misused
  | helpWithInclude
  | unknown
  | separator
  deriving DecidableEq, Repr

inductive UsageError
  | ambiguous
  | missingValue
  | needlessValue
  | unrecognized
  | bothSources
  | missingSource
  | missingOut
  deriving DecidableEq, Repr

/-- A number below zero, which is a value although it begins like an option. A line break may follow
    it. -/
def isNegativeNumber (text : String) : Bool :=
  let isDigit (c : Char) := (Unicode.digit? c).isSome
  match (Text.dropEnding "\n" text).toList with
  | '-' :: digits =>
    match digits.dropWhile isDigit with
    | [] => !digits.isEmpty
    | '.' :: fraction => !fraction.isEmpty && fraction.all isDigit
    | _ => false
  | _ => false

/-- More short names in the argument of the short name of help. A name that takes a value may be the
    last of them, and takes what is left. -/
def helpCluster : List Char → Argument
  | [] => .flag .help none
  | 'h' :: rest => helpCluster rest
  | ['I'] => .helpWithInclude
  | 'I' :: _ => .flag .help none
  | _ => .misused

/-- A flag with the value in its argument. Help takes none, but more short names may follow its own,
    also after an equals sign. -/
def withValue (text : String) (flag : Flag) (value : Option String) : Argument :=
  match flag, value with
  | .help, some value =>
    if Text.startsWith text "--" || value = "" then .misused else helpCluster value.toList
  | _, _ => .flag flag value

/-- The options that a shortened name may stand for, each with the value that comes with it. -/
def candidates (text : String) : List (Flag × Option String) :=
  if Text.startsWith text "--" then
    let (name, value) := Text.cut '=' text
    let value := if text.toList.contains '=' then some value else none
    (flagNames.filter (fun (full, _) => Text.startsWith full name)).map fun (_, flag) => (flag, value)
  else
    let short := String.ofList (text.toList.take 2)
    (flagNames.filter (fun (full, _) => full == short)).map fun (_, flag) =>
      (flag, some (String.ofList (text.toList.drop 2)))

def classifyHyphenated (text : String) : Except UsageError Argument :=
  match flagNames.lookup text with
  | some flag => .ok (.flag flag none)
  | none =>
    let (name, value) := Text.cut '=' text
    match if text.toList.contains '=' then flagNames.lookup name else none with
    | some flag => .ok (withValue text flag (some value))
    | none =>
      match candidates text with
      | _ :: _ :: _ => .error .ambiguous
      | [(flag, value)] => .ok (withValue text flag value)
      | [] =>
        if isNegativeNumber text || text.toList.contains ' ' then .ok (.value text)
        else .ok .unknown

def classify (text : String) : Except UsageError Argument :=
  if Text.startsWith text "-" ∧ text ≠ "-" then classifyHyphenated text else .ok (.value text)

def classifyAll : List String → Except UsageError (List Argument)
  | [] => .ok []
  | text :: rest =>
    if text = "--" then .ok (.separator :: rest.map .value)
    else do
      let first ← classify text
      let others ← classifyAll rest
      return first :: others

structure Settings where
  descriptorSet : Option String := none
  protos : Option (List String) := none
  includes : List String := []
  out : Option String := none
  files : List String := []
  parameter : String := ""
  deriving DecidableEq, Repr

inductive Reading
  | help
  | settings (s : Settings)
  deriving DecidableEq, Repr

namespace Settings

def set (s : Settings) (flag : Flag) (values : List String) : Except UsageError Settings :=
  let value := values.headD ""
  match flag with
  | .help => .ok s
  | .descriptorSet =>
    if s.protos.isSome then .error .bothSources else .ok { s with descriptorSet := some value }
  | .proto =>
    if s.descriptorSet.isSome then .error .bothSources else .ok { s with protos := some values }
  | .include => .ok { s with includes := s.includes ++ [value] }
  | .out => .ok { s with out := some value }
  | .file => .ok { s with files := s.files ++ [value] }
  | .parameter => .ok { s with parameter := value }

def valuesAfter (flag : Flag) (rest : List Argument) : List String × List Argument :=
  let values := rest.map fun
    | .value text => some text
    | _ => none
  let most := if flag = .proto then rest.length else 1
  let taken := ((values.take most).takeWhile (·.isSome)).filterMap id
  (taken, rest.drop taken.length)

theorem valuesAfter_length_le (flag : Flag) (rest : List Argument) :
    (valuesAfter flag rest).2.length ≤ rest.length := by
  simp [valuesAfter]

def read (s : Settings) (complete : Bool) : List Argument → Except UsageError Reading
  | [] =>
    if s.out.isNone then .error .missingOut
    else if s.descriptorSet.isNone ∧ s.protos.isNone then .error .missingSource
    else if complete then .ok (.settings s)
    else .error .unrecognized
  | .flag .help _ :: _ => .ok .help
  | .helpWithInclude :: rest =>
    if (valuesAfter .include rest).1 = [] then .error .missingValue else .ok .help
  | .misused :: _ => .error .needlessValue
  | .flag flag (some value) :: rest => do (← s.set flag [value]).read complete rest
  | .flag flag none :: rest =>
    match h : valuesAfter flag rest with
    | ([], _) => .error .missingValue
    | (values, after) =>
      have : after.length ≤ rest.length := by
        have := valuesAfter_length_le flag rest
        rwa [h] at this
      do (← s.set flag values).read complete after
  | .value _ :: rest | .unknown :: rest | .separator :: rest => s.read false rest
termination_by arguments => arguments.length

end Settings

def readArguments (arguments : List String) : Except UsageError Reading := do
  Settings.read {} true (← classifyAll arguments)

end ProtoBindings.CommandLine
