import ProtoBindings.Descriptor.Basic
import ProtoBindings.Descriptor.Shape
import ProtoBindings.Text.Utf8

namespace ProtoBindings.Descriptor

open Schema (ScalarType)
open Wire (Bytes Entry Fault)

def entriesOf (bytes : Bytes) : List Entry := (Wire.scan Wire.maxDepth bytes).items

def textOf (content : Bytes) : String := (Text.Utf8.decode? content).getD ""

def textsAt (number : Nat) (entries : List Entry) : List String :=
  (Wire.contentsAt number entries).map textOf

def textAt (number : Nat) (entries : List Entry) : String :=
  (textsAt number entries).getLast?.getD ""

def int32sAt (number : Nat) (entries : List Entry) : List Int :=
  (Wire.varintsAt number entries).map (Wire.signed 32)

def int32At? (number : Nat) (entries : List Entry) : Option Int :=
  (int32sAt number entries).getLast?

def flagAt (number : Nat) (entries : List Entry) : Bool :=
  ((Wire.varintsAt number entries).map (· != 0)).getLast?.getD false

/-- The entries of a single message; those of several occurrences are merged. -/
def mergedAt (number : Nat) (entries : List Entry) : List Entry :=
  (Wire.contentsAt number entries).flatMap entriesOf

def repeatedAt (number : Nat) (entries : List Entry) : List (List Entry) :=
  (Wire.contentsAt number entries).map entriesOf

def FieldType.ofNumber? : Int → Option FieldType
  | 1 => some (.scalar .double)
  | 2 => some (.scalar .float)
  | 3 => some (.scalar .int64)
  | 4 => some (.scalar .uint64)
  | 5 => some (.scalar .int32)
  | 6 => some (.scalar .fixed64)
  | 7 => some (.scalar .fixed32)
  | 8 => some (.scalar .bool)
  | 9 => some (.scalar .string)
  | 10 => some .group
  | 11 => some .message
  | 12 => some (.scalar .bytes)
  | 13 => some (.scalar .uint32)
  | 14 => some .enum
  | 15 => some (.scalar .sfixed32)
  | 16 => some (.scalar .sfixed64)
  | 17 => some (.scalar .sint32)
  | 18 => some (.scalar .sint64)
  | _ => none

def Label.ofNumber? : Int → Option Label
  | 1 => some .optional
  | 2 => some .required
  | 3 => some .repeated
  | _ => none

/-- The last number that stands for something. -/
def enumAt {α : Type} [Inhabited α] (ofNumber? : Int → Option α) (number : Nat)
    (entries : List Entry) : α :=
  ((int32sAt number entries).filterMap ofNumber?).getLast?.getD default

def readField (entries : List Entry) : Field where
  name := textAt 1 entries
  number := (int32At? 3 entries).getD 0
  label := enumAt Label.ofNumber? 4 entries
  type := enumAt FieldType.ofNumber? 5 entries
  typeName := textAt 6 entries
  oneofIndex := int32At? 9 entries
  isProto3Optional := flagAt 17 entries
  deprecated := flagAt 3 (mergedAt 8 entries)

def readEnumValue (entries : List Entry) : EnumValue where
  name := textAt 1 entries
  number := (int32At? 2 entries).getD 0

def readEnum (entries : List Entry) : Enum where
  name := textAt 1 entries
  values := (repeatedAt 2 entries).map readEnumValue

/-- `depth` bounds how far nested messages are followed. -/
def readMessage : (depth : Nat) → List Entry → Message
  | 0, _ => {}
  | depth + 1, entries => {
      name := textAt 1 entries
      fields := (repeatedAt 2 entries).map readField
      oneofs := (repeatedAt 8 entries).map (textAt 1)
      messages := (repeatedAt 3 entries).map (readMessage depth)
      enums := (repeatedAt 4 entries).map readEnum
      isMapEntry := flagAt 7 (mergedAt 7 entries) }

def readMethod (entries : List Entry) : Method where
  name := textAt 1 entries
  input := textAt 2 entries
  output := textAt 3 entries
  clientStreaming := flagAt 5 entries
  serverStreaming := flagAt 6 entries
  deprecated := flagAt 33 (mergedAt 4 entries)

def readService (entries : List Entry) : Service where
  name := textAt 1 entries
  methods := (repeatedAt 2 entries).map readMethod

def readFile (entries : List Entry) : File where
  name := textAt 1 entries
  package := textAt 2 entries
  dependencies := textsAt 3 entries
  messages := (repeatedAt 4 entries).map (readMessage Wire.maxDepth)
  enums := (repeatedAt 5 entries).map readEnum
  services := (repeatedAt 6 entries).map readService

def readAs {α : Type} (shape : Shape) (read : List Entry → α) (bytes : Bytes) : Except Fault α :=
  match shape.fault? Wire.maxDepth bytes with
  | some fault => .error fault
  | none => .ok (read (entriesOf bytes))

def readFileSet : Bytes → Except Fault (List File) :=
  readAs .fileSet fun entries => (repeatedAt 1 entries).map readFile

structure Request where
  filesToGenerate : List String := []
  parameter : String := ""
  files : List File := []
  deriving Repr

def readRequest : Bytes → Except Fault Request :=
  readAs .request fun entries => {
    filesToGenerate := textsAt 1 entries
    parameter := textAt 2 entries
    files := (repeatedAt 15 entries).map readFile }

end ProtoBindings.Descriptor
