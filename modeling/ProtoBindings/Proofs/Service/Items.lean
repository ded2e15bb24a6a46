import ProtoBindings.Proofs.Code.Sources
import ProtoBindings.Proofs.Service.Names
import ProtoBindings.Proofs.Value.Items

namespace ProtoBindings

open Code (Expr Path Stmt attributesOf blockPaths freePaths inClass nameInClass)
open Value (Item functionItem)

namespace Code

def Stmt.setsOnSelf? : Stmt → Option String
  | .assign (.attribute (.name "self") id) _ => some id
  | .assignCall (.attribute (.name "self") id) _ _ => some id
  | _ => none

/-- The words of code, each with the attributes behind its dots. Quoted text is left out, but not what
    it shows in braces, and so are the keywords of arguments. -/
def wordsFrom (quoted : Bool) (word : List Char) : List Char → List (List Char)
  | [] => [word]
  | c :: rest =>
    if quoted then wordsFrom (c ≠ '"' && c ≠ '\x7b') [] rest
    else if c = '"' then wordsFrom true [] rest
    else if c = '!' ∨ c = '\x7d' then word :: wordsFrom true [] rest
    else if c = '=' then wordsFrom false [] rest
    else if Name.isWordChar c ∨ c = '.' then wordsFrom false (word ++ [c]) rest
    else word :: wordsFrom false [] rest

def keywordWords : List (List Char) := Name.keywords.map String.toList

def pathsOf (line : List Char) : List Path :=
  ((wordsFrom false [] line).filter fun word => word ≠ [] && !keywordWords.contains word).map
    fun word => (word.splitOn '.').map String.ofList

end Code

namespace Service

def rpcAttributes : List String :=
  ["service", "name", "shape", "request_serializer", "request_deserializer", "response_serializer",
    "response_deserializer", "request_to_idiom", "request_to_host", "response_to_idiom",
    "response_to_host", "full_name", "path"]

namespace Binding

def constantArguments (b : Binding) : List (String × Expr) :=
  [("shape", (dotted "_rpc" "RpcShape").attribute b.shape.constant),
    ("request_serializer", b.request.host.attribute "SerializeToString"),
    ("request_deserializer", b.request.host.attribute "FromString"),
    ("response_serializer", b.response.host.attribute "SerializeToString"),
    ("response_deserializer", b.response.host.attribute "FromString"),
    ("request_to_idiom", b.request.reader), ("request_to_host", b.request.writer),
    ("response_to_idiom", b.response.reader), ("response_to_host", b.response.writer)]

def constantItem (b : Binding) : Item where
  lines := b.constantLines
  defines := [b.constant]
  members := rpcAttributes.map (b.constant, ·)
  evaluated := ["_rpc", "RpcMethod"] :: [serviceConstant b.service] ::
    b.constantArguments.flatMap (·.2.paths)

end Binding

namespace ServiceClass

def attributes (k : ServiceClass) : List String :=
  k.methods.map (·.name) ++
    (k.methods.filter (·.name == "__init__")).flatMap (·.body.filterMap (·.setsOnSelf?))

/-- Annotations are never evaluated, so that their names stay as they are written. -/
def item (k : ServiceClass) : Item where
  lines := k.lines
  defines := [k.name]
  evaluated := inClass k.name (k.methods.flatMap (·.evaluated))
  deferred := k.methods.flatMap (·.annotationPaths) ++
    inClass k.name (k.methods.flatMap (·.bodyPaths))

/-- What the methods of a class take of `self`, they or `__init__` provide. -/
def OwnsAttributes (k : ServiceClass) : Prop :=
  ∀ f ∈ k.methods, ∀ id ∈ attributesOf "self" (blockPaths f.body),
    nameInClass k.name id ∈ k.attributes.map (nameInClass k.name)

end ServiceClass

def adapterLocals : List String :=
  ["method", "implementation", "shape", "unary", "client_streaming", "server_streaming",
    "bidi_streaming", "request", "request_iterator", "context", "response", "error"]

def adapterItem : Item where
  lines := ["", ""] ++ adapterLines
  defines := [adapterName]
  evaluated := []
  deferred := freePaths adapterLocals (adapterLines.flatMap fun line => Code.pathsOf line.toList)

namespace Bound

def serviceItem (b : Bound) : Item where
  lines := ["", serviceConstant b.service ++ " = \"" ++ b.service.fullName ++ "\""]
  defines := [serviceConstant b.service]
  evaluated := []

def constantItems (b : Bound) : List Item := b.serviceItem :: b.bindings.map (·.constantItem)

def codeItems (b : Bound) : List Item := b.defaults.map functionItem ++ b.classes.map (·.item)

end Bound

def Module.items (m : Module) : List Item :=
  m.services.flatMap (·.constantItems) ++ [adapterItem] ++ m.services.flatMap (·.codeItems)

/-- After header and imports, the lines of a module are those of its items, in order. -/
def Module.IsSpelled (m : Module) : Prop :=
  m.lines = Value.Module.header m.source "grpc.aio bindings for the services declared in" ++ [""] ++
    Import.block m.imports ++ m.items.flatMap (·.lines)

theorem Module.isSpelled (m : Module) : m.IsSpelled := by
  have constants (b : Bound) : b.constantItems.flatMap (·.lines) = b.constantLines := by
    simp [Bound.constantItems, Bound.constantLines, Bound.serviceItem, List.flatMap_map,
      Binding.constantItem]
  have code (b : Bound) : b.codeItems.flatMap (·.lines) = b.classLines := by
    simp [Bound.codeItems, Bound.classLines, List.flatMap_map, functionItem, ServiceClass.item]
  simp [Module.IsSpelled, Module.lines, Module.items, List.flatMap_assoc, constants, code, adapterItem]

end Service

end ProtoBindings
