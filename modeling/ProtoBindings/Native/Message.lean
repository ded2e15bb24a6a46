import ProtoBindings.Native.TimeLibrary
import ProtoBindings.Native.Wrapper

namespace ProtoBindings.Native

open Calendar (Moment TimeDelta)

inductive MessageKind
  | wrapper (kind : WrapperKind)
  | timestamp
  | duration
  | empty
  | sourceContext
  deriving DecidableEq, Repr

namespace MessageKind

def name : MessageKind → String
  | wrapper kind => kind.messageName
  | timestamp => "Timestamp"
  | duration => "Duration"
  | empty => "Empty"
  | sourceContext => "SourceContext"

def fullName (k : MessageKind) : String := "google.protobuf." ++ k.name

def parserLabel (k : MessageKind) : String := "IdiomParser(" ++ k.fullName ++ ")"

def all : List MessageKind :=
  WrapperKind.all.map wrapper ++ [timestamp, duration, empty, sourceContext]

end MessageKind

inductive Message
  | wrapper (content : Wrapper)
  | timestamp (content : Timestamp)
  | duration (content : Duration)
  | empty
  | sourceContext (fileName : String)
  deriving DecidableEq, Repr

inductive NativeValue
  | scalar (value : Scalar)
  | moment (value : Moment)
  | timeDelta (value : TimeDelta)
  | empty
  deriving DecidableEq, Repr

def Message.toNative {ε : Type} (library : TimeLibrary ε) : Message → Except ε NativeValue
  | wrapper content => .ok (.scalar content.value)
  | timestamp content => (timestampToDateTime library content).map .moment
  | duration content => (durationToTimeDelta library content).map .timeDelta
  | empty => .ok .empty
  | sourceContext fileName => .ok (.scalar (.text fileName))

end ProtoBindings.Native
