import ProtoBindings.Descriptor.Read
import ProtoBindings.Output

namespace ProtoBindings.Plugin

open Descriptor (File Request)
open Wire (Bytes)

structure Response where
  features : Nat
  files : List Output
  deriving DecidableEq, Repr

def optionalFields : Nat := 1

/-- The host library as far as it is called. It reads a message, or says why it refuses the data; the texts
    of what it reads are texts. -/
structure Library where
  readRequest : Bytes → Except String Request
  readFileSet : Bytes → Except String (List File)
  writeResponse : Response → Bytes

def fileMessage (o : Output) : Bytes :=
  Wire.contentField 1 (Text.Utf8.encode o.path) ++ Wire.contentField 15 (Text.Utf8.encode o.content)

def hostLibrary : Library where
  readRequest bytes :=
    (Descriptor.readRequest bytes).mapError (·.message "google.protobuf.compiler.CodeGeneratorRequest")
  readFileSet bytes :=
    (Descriptor.readFileSet bytes).mapError (·.message "google.protobuf.FileDescriptorSet")
  writeResponse r :=
    Wire.varintField 2 r.features ++ r.files.flatMap fun o => Wire.contentField 15 (fileMessage o)

end ProtoBindings.Plugin
