namespace ProtoBindings.Rpc

inductive Shape
  | unary
  | clientStreaming
  | serverStreaming
  | bidiStreaming
  deriving DecidableEq, Repr

def Shape.ofFlags (clientStreaming serverStreaming : Bool) : Shape :=
  match clientStreaming, serverStreaming with
  | true, true => bidiStreaming
  | true, false => .clientStreaming
  | false, true => .serverStreaming
  | false, false => unary

def Shape.streamsRequests : Shape → Bool
  | .clientStreaming | .bidiStreaming => true
  | .unary | .serverStreaming => false

def Shape.streamsResponses : Shape → Bool
  | .serverStreaming | .bidiStreaming => true
  | .unary | .clientStreaming => false

def Shape.constant : Shape → String
  | .unary => "UNARY"
  | .clientStreaming => "CLIENT_STREAMING"
  | .serverStreaming => "SERVER_STREAMING"
  | .bidiStreaming => "BIDI_STREAMING"

def Shape.label : Shape → String
  | .unary => "unary"
  | .clientStreaming => "client_streaming"
  | .serverStreaming => "server_streaming"
  | .bidiStreaming => "bidi_streaming"

def Shape.channelFactory : Shape → String
  | .unary => "unary_unary"
  | .clientStreaming => "stream_unary"
  | .serverStreaming => "unary_stream"
  | .bidiStreaming => "stream_stream"

structure Status where
  code : String
  details : String := ""
  deriving DecidableEq, Repr

def Status.text (s : Status) : String :=
  if s.details = "" then s.code else s.code ++ ": " ++ s.details

def unimplemented (method : String) : Status :=
  ⟨"UNIMPLEMENTED", "Method " ++ method ++ " is unimplemented"⟩

structure MethodName where
  service : String
  name : String
  deriving DecidableEq, Repr

namespace MethodName

def fullName (m : MethodName) : String := m.service ++ "." ++ m.name

def path (m : MethodName) : String := "/" ++ m.service ++ "/" ++ m.name

end MethodName

end ProtoBindings.Rpc
