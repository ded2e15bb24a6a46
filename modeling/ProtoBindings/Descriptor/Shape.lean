import ProtoBindings.Wire.Entry

namespace ProtoBindings.Descriptor

open Wire (Bytes Entry Fault)

inductive Shape
  | request
  | fileSet
  | version
  | file
  | message
  | extensionRange
  | range
  | field
  | oneof
  | enum
  | enumValue
  | service
  | method
  | fileOptions
  | messageOptions
  | fieldOptions
  | editionDefault
  | featureSupport
  | oneofOptions
  | extensionRangeOptions
  | extensionDeclaration
  | enumOptions
  | enumValueOptions
  | serviceOptions
  | methodOptions
  | uninterpretedOption
  | namePart
  | featureSet
  | sourceInfo
  | location
  deriving DecidableEq, Repr

namespace Shape

def messageFields : Shape → List (Nat × Shape)
  | request => [(3, version), (15, file), (17, file)]
  | fileSet => [(1, file)]
  | file => [(4, message), (5, enum), (6, service), (7, field), (8, fileOptions), (9, sourceInfo)]
  | message =>
    [(2, field), (3, message), (4, enum), (5, extensionRange), (6, field), (7, messageOptions),
      (8, oneof), (9, range)]
  | extensionRange => [(3, extensionRangeOptions)]
  | field => [(8, fieldOptions)]
  | oneof => [(2, oneofOptions)]
  | enum => [(2, enumValue), (3, enumOptions), (4, range)]
  | enumValue => [(3, enumValueOptions)]
  | service => [(2, method), (3, serviceOptions)]
  | method => [(4, methodOptions)]
  | fileOptions => [(50, featureSet), (999, uninterpretedOption)]
  | messageOptions => [(12, featureSet), (999, uninterpretedOption)]
  | fieldOptions =>
    [(20, editionDefault), (21, featureSet), (22, featureSupport), (999, uninterpretedOption)]
  | oneofOptions => [(1, featureSet), (999, uninterpretedOption)]
  | extensionRangeOptions =>
    [(2, extensionDeclaration), (50, featureSet), (999, uninterpretedOption)]
  | enumOptions => [(7, featureSet), (999, uninterpretedOption)]
  | enumValueOptions => [(2, featureSet), (4, featureSupport), (999, uninterpretedOption)]
  | serviceOptions => [(34, featureSet), (999, uninterpretedOption)]
  | methodOptions => [(35, featureSet), (999, uninterpretedOption)]
  | uninterpretedOption => [(2, namePart)]
  | sourceInfo => [(1, location)]
  | version | range | editionDefault | featureSupport | extensionDeclaration | namePart
  | featureSet | location => []

def packableFields : Shape → List Nat
  | file => [10, 11]
  | fieldOptions => [19]
  | location => [1, 2]
  | _ => []

end Shape

def isPacked (content : Bytes) : Bool :=
  if content = [] then true
  else
    match _h : Wire.readVarint Wire.valueBytes content with
    | none => false
    | some (_, rest) => isPacked rest
termination_by content.length
decreasing_by exact Wire.readVarint_shorter _h

mutual

/-- The first fault in serialized data, with messages and groups nested at most `depth` deep. -/
def Shape.fault? (shape : Shape) (depth : Nat) (bytes : Bytes) : Option Fault :=
  let scan := Wire.scan depth bytes
  (shape.entriesFault? depth scan.items).orElse fun _ =>
    if scan.complete then none else some .malformed
termination_by (depth, 1, 0)

def Shape.entriesFault? (shape : Shape) (depth : Nat) : List Entry → Option Fault
  | [] => none
  | ⟨number, .bytes content⟩ :: rest =>
    let first : Option Fault := match shape.messageFields.lookup number, depth with
      | some _, 0 => some .tooDeep
      | some inner, depth + 1 => inner.fault? depth content
      | none, _ =>
        if shape.packableFields.contains number && !isPacked content then some .malformed
        else none
    first.orElse fun _ => shape.entriesFault? depth rest
  | _ :: rest => shape.entriesFault? depth rest
termination_by entries => (depth, 0, entries.length)

end

end ProtoBindings.Descriptor
