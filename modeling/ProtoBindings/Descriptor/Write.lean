import ProtoBindings.Descriptor.Read

namespace ProtoBindings.Descriptor

open Wire (Bytes)

def textField (number : Nat) (text : String) : Bytes :=
  Wire.contentField number (Text.Utf8.encode text)

def intField (number : Nat) (n : Int) : Bytes :=
  Wire.varintField number (n % 18446744073709551616).toNat

def flagField (number : Nat) (flag : Bool) : Bytes :=
  if flag then Wire.varintField number 1 else []

def FieldType.number : FieldType → Int
  | .scalar .double => 1
  | .scalar .float => 2
  | .scalar .int64 => 3
  | .scalar .uint64 => 4
  | .scalar .int32 => 5
  | .scalar .fixed64 => 6
  | .scalar .fixed32 => 7
  | .scalar .bool => 8
  | .scalar .string => 9
  | .group => 10
  | .message => 11
  | .scalar .bytes => 12
  | .scalar .uint32 => 13
  | .enum => 14
  | .scalar .sfixed32 => 15
  | .scalar .sfixed64 => 16
  | .scalar .sint32 => 17
  | .scalar .sint64 => 18

def Label.number : Label → Int
  | .optional => 1
  | .required => 2
  | .repeated => 3

def writeField (f : Field) : Bytes :=
  textField 1 f.name ++ intField 3 f.number ++ intField 4 f.label.number ++
    intField 5 f.type.number ++ textField 6 f.typeName ++
    (if f.deprecated then Wire.contentField 8 (flagField 3 true) else []) ++
    (f.oneofIndex.map (intField 9)).getD [] ++ flagField 17 f.isProto3Optional

def writeEnum (e : Enum) : Bytes :=
  textField 1 e.name ++ e.values.flatMap fun value =>
    Wire.contentField 2 (textField 1 value.name ++ intField 2 value.number)

mutual

def writeMessage : Message → Bytes
  | ⟨name, fields, oneofs, messages, enums, isMapEntry⟩ =>
    textField 1 name ++ fields.flatMap (fun f => Wire.contentField 2 (writeField f)) ++
      writeMessages 3 messages ++ enums.flatMap (fun e => Wire.contentField 4 (writeEnum e)) ++
      (if isMapEntry then Wire.contentField 7 (flagField 7 true) else []) ++
      oneofs.flatMap fun oneof => Wire.contentField 8 (textField 1 oneof)

def writeMessages (number : Nat) : List Message → Bytes
  | [] => []
  | message :: rest => Wire.contentField number (writeMessage message) ++ writeMessages number rest

end

def writeMethod (m : Method) : Bytes :=
  textField 1 m.name ++ textField 2 m.input ++ textField 3 m.output ++
    (if m.deprecated then Wire.contentField 4 (flagField 33 true) else []) ++
    flagField 5 m.clientStreaming ++ flagField 6 m.serverStreaming

def writeService (s : Service) : Bytes :=
  textField 1 s.name ++ s.methods.flatMap fun m => Wire.contentField 2 (writeMethod m)

def writeFile (f : File) : Bytes :=
  textField 1 f.name ++ textField 2 f.package ++ f.dependencies.flatMap (textField 3) ++
    writeMessages 4 f.messages ++ f.enums.flatMap (fun e => Wire.contentField 5 (writeEnum e)) ++
    f.services.flatMap fun s => Wire.contentField 6 (writeService s)

def writeFileSet (files : List File) : Bytes :=
  files.flatMap fun f => Wire.contentField 1 (writeFile f)

end ProtoBindings.Descriptor
