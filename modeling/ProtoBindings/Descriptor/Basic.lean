import ProtoBindings.Schema.Type

namespace ProtoBindings.Descriptor

open Schema (ScalarType)

inductive FieldType
  | scalar (type : ScalarType)
  | group
  | message
  | enum
  deriving DecidableEq, Repr

/-- A field without a type reads as a double. -/
instance : Inhabited FieldType := ⟨.scalar .double⟩

inductive Label
  | optional
  | required
  | repeated
  deriving DecidableEq, Repr, Inhabited

structure Field where
  name : String := ""
  number : Int := 0
  type : FieldType := default
  label : Label := default
  typeName : String := ""
  oneofIndex : Option Int := none
  isProto3Optional : Bool := false
  deprecated : Bool := false
  deriving DecidableEq, Repr

structure EnumValue where
  name : String := ""
  number : Int := 0
  deriving DecidableEq, Repr

structure Enum where
  name : String := ""
  values : List EnumValue := []
  deriving DecidableEq, Repr

structure Message where
  name : String := ""
  fields : List Field := []
  oneofs : List String := []
  messages : List Message := []
  enums : List Enum := []
  isMapEntry : Bool := false
  deriving Repr

structure Method where
  name : String := ""
  input : String := ""
  output : String := ""
  clientStreaming : Bool := false
  serverStreaming : Bool := false
  deprecated : Bool := false
  deriving DecidableEq, Repr

structure Service where
  name : String := ""
  methods : List Method := []
  deriving DecidableEq, Repr

structure File where
  name : String := ""
  package : String := ""
  dependencies : List String := []
  messages : List Message := []
  enums : List Enum := []
  services : List Service := []
  deriving Repr

end ProtoBindings.Descriptor
