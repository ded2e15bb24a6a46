import ProtoBindings.Rpc.Method
import ProtoBindings.Schema.Type

namespace ProtoBindings.Schema

inductive ElementType
  | scalar (type : ScalarType)
  | unknownScalar (name : Option String)
  | enum (ref : TypeRef)
  | message (ref : TypeRef)
  | undeclared (isMessage : Bool)
  | missing
  deriving DecidableEq, Repr

def ElementType.isMessage : ElementType → Bool
  | .message _ => true
  | .undeclared isMessage => isMessage
  | _ => false

def ElementType.ref? : ElementType → Option TypeRef
  | .enum ref | .message ref => some ref
  | _ => none

structure FieldInfo where
  name : String
  number : Int
  element : ElementType
  isRepeated : Bool := false
  isExplicitOptional : Bool := false
  oneof : Option String := none
  deprecated : Bool := false
  deriving DecidableEq, Repr

/-- A map field refers to its entry message, and has the fields of a key and of a value. -/
inductive Field
  | ordinary (info : FieldInfo)
  | map (info : FieldInfo) (key value : Field)
  deriving DecidableEq, Repr

namespace Field

def absent : Field := .ordinary { name := "", number := 0, element := .missing }

def info : Field → FieldInfo
  | ordinary info | map info _ _ => info

def name (f : Field) : String := f.info.name

def element (f : Field) : ElementType := f.info.element

def isMap : Field → Bool
  | ordinary _ => false
  | map _ _ _ => true

/-- A single message always has presence. -/
def isImplicitOptional (f : Field) : Bool :=
  f.element.isMessage && !f.info.isRepeated && !f.isMap

def hasPresence (f : Field) : Bool := f.info.isExplicitOptional || f.isImplicitOptional

def inOneof (f : Field) : Bool := f.info.oneof.isSome

end Field

structure Oneof where
  name : String
  fields : List Field
  deriving DecidableEq, Repr

structure EnumValue where
  name : String
  number : Int
  deriving DecidableEq, Repr

structure EnumType where
  name : String
  fullName : String
  ref : TypeRef
  values : List EnumValue
  deriving DecidableEq, Repr

/-- `fields` are those outside oneofs; `declarationOrder` names all fields as they are declared. -/
structure Message where
  name : String
  fullName : String
  ref : TypeRef
  fields : List Field
  oneofs : List Oneof
  messages : List Message
  enums : List EnumType
  declarationOrder : List String
  deriving Repr

structure Method where
  name : String
  fullName : String
  input : TypeRef
  output : TypeRef
  clientStreaming : Bool
  serverStreaming : Bool
  deprecated : Bool
  deriving DecidableEq, Repr

def Method.shape (m : Method) : Rpc.Shape := .ofFlags m.clientStreaming m.serverStreaming

structure Service where
  name : String
  fullName : String
  methods : List Method
  deriving DecidableEq, Repr

structure FileUnit where
  name : String
  package : String
  dependencies : List String
  messages : List Message
  enums : List EnumType
  services : List Service
  deriving Repr

mutual

def Message.innerFirst : Message → List Message
  | ⟨name, fullName, ref, fields, oneofs, messages, enums, order⟩ =>
    innerFirstOf messages ++ [⟨name, fullName, ref, fields, oneofs, messages, enums, order⟩]

def innerFirstOf : List Message → List Message
  | [] => []
  | message :: rest => message.innerFirst ++ innerFirstOf rest

end

theorem Message.innerFirst_eq (message : Message) :
    message.innerFirst = innerFirstOf message.messages ++ [message] := by
  obtain ⟨name, fullName, ref, fields, oneofs, messages, enums, order⟩ := message
  rw [Message.innerFirst]

def FileUnit.allMessages (unit : FileUnit) : List Message := innerFirstOf unit.messages

def FileUnit.allEnums (unit : FileUnit) : List EnumType :=
  unit.enums ++ unit.allMessages.flatMap (·.enums)

def unrecognized : String := "UNRECOGNIZED"

def EnumType.declaresUnrecognized (e : EnumType) : Bool := e.values.any (·.name == unrecognized)

def EnumType.numbers (e : EnumType) : List Int := e.values.map (·.number)

/-- `-1` if it is free, and else the number below the smallest. -/
def freeNumber (numbers : List Int) : Int :=
  if numbers.contains (-1) then (numbers.min?.getD (-1)) - 1 else -1

def EnumType.unrecognizedNumber (e : EnumType) : Int :=
  match e.values.find? (·.name == unrecognized) with
  | some value => value.number
  | none => freeNumber e.numbers

end ProtoBindings.Schema
