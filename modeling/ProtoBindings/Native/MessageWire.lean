import ProtoBindings.Native.Message
import ProtoBindings.Wire.Entry

namespace ProtoBindings.Native

open Wire (Bytes Entry Fault)

def lastVarint (number : Nat) (entries : List Entry) : Nat :=
  (Wire.varintsAt number entries).getLast?.getD 0

def lastContent (number : Nat) (entries : List Entry) : Bytes :=
  (Wire.contentsAt number entries).getLast?.getD []

def Scalar.ofEntries (kind : WrapperKind) (entries : List Entry) : Scalar :=
  match kind with
  | .double => .real ((Wire.fixed64sAt 1 entries).getLast?.getD 0)
  | .float => .real (ofSingle ((Wire.fixed32sAt 1 entries).getLast?.getD 0))
  | .int64 => .number (Wire.signed 64 (lastVarint 1 entries))
  | .uint64 => .number (lastVarint 1 entries)
  | .int32 => .number (Wire.signed 32 (lastVarint 1 entries))
  | .uint32 => .number (lastVarint 1 entries % 4294967296 : Nat)
  | .bool => .truth (lastVarint 1 entries != 0)
  | .string => .text (Text.Utf8.decodeDropping (lastContent 1 entries))
  | .bytes => .data (lastContent 1 entries)

namespace MessageKind

def hasText : MessageKind → Bool
  | wrapper .string | sourceContext => true
  | _ => false

def ofEntries (entries : List Entry) : MessageKind → Message
  | wrapper kind => .wrapper ⟨kind, .ofEntries kind entries⟩
  | timestamp => .timestamp
      ⟨Wire.signed 64 (lastVarint 1 entries), Wire.signed 32 (lastVarint 2 entries)⟩
  | duration => .duration
      ⟨Wire.signed 64 (lastVarint 1 entries), Wire.signed 32 (lastVarint 2 entries)⟩
  | empty => .empty
  | sourceContext => .sourceContext (Text.Utf8.decodeDropping (lastContent 1 entries))

/-- Every text must be UTF-8, also one that another one replaces. The first fault counts. -/
def ofWire (kind : MessageKind) (bytes : Bytes) : Except Fault Message :=
  let scan := Wire.scan Wire.maxDepth bytes
  let texts := Wire.contentsAt 1 scan.items
  if kind.hasText ∧ texts.any (fun text => (Text.Utf8.decode? text).isNone) then .error .badText
  else if scan.complete then .ok (kind.ofEntries scan.items)
  else .error .malformed

end MessageKind

end ProtoBindings.Native
