import ProtoBindings.Import.Block
import ProtoBindings.Value.Converter
import ProtoBindings.Value.Enum

namespace ProtoBindings.Value

open Code (Function)
open Schema (FileUnit)

structure Module where
  source : String
  baseImports : List Import
  enums : List EnumClass
  declarations : List Declaration
  tables : List EnumTables
  functions : List Function
  parsers : List ParserConstant
  deriving Repr

namespace Module

def ofUnit (mapper : Mapper) (unit : FileUnit) : Except Mapping.Error Module := do
  let messages := unit.allMessages
  let enums := unit.allEnums
  let declarations ← messages.mapM (messageDeclarations mapper)
  let functions ← messages.mapM (messageFunctions mapper)
  return {
    source := unit.name
    baseImports :=
      (if enums = [] then [] else [{ module := "enum" }]) ++
      (if messages.isEmpty then [] else [{ module := "dataclasses" }])
    enums := enums.map enumClass
    declarations := declarations.flatten
    tables := enums.map enumTables
    functions := enums.flatMap enumFunctions ++ functions.flatten
    parsers := messages.map parserConstant }

def imports (m : Module) : List Import :=
  m.baseImports ++ m.declarations.flatMap (·.imports) ++ m.tables.flatMap (·.imports) ++
    m.functions.flatMap (·.imports) ++ m.parsers.flatMap (·.imports)

end Module

def EnumClass.lines (e : EnumClass) : List String :=
  ["", "", "class " ++ e.name ++ "(enum.IntEnum):",
    "    \"\"\"``" ++ e.fullName ++
      "``. Numbers this version does not know map to ``UNRECOGNIZED``.\"\"\"",
    ""] ++
  e.members.map fun member => "    " ++ member.name ++ " = " ++ toString member.number

def Attribute.lines (a : Attribute) : List String :=
  (if a.deprecated then ["    # Deprecated in the .proto definition."] else []) ++
    ["    " ++ a.name ++ ": " ++ a.type.text ++ " = " ++ a.default.text]

def DataClass.lines (c : DataClass) : List String :=
  ["", "", "@dataclasses.dataclass(frozen=True)", "class " ++ c.name ++ ":",
    "    \"\"\"" ++ c.doc ++ "\"\"\""] ++
  (if c.attributes = [] then [] else "" :: c.attributes.flatMap (·.lines)) ++
  c.methods.flatMap fun method => "" :: method.lines Code.indent

def Declaration.lines : Declaration → List String
  | dataClass definition => definition.lines
  | union name variants => ["", "", name ++ " = Union[" ++ ", ".intercalate variants ++ "]"]

def EnumTables.lines (t : EnumTables) : List String :=
  let member (entry : TableEntry) := t.className ++ "." ++ entry.member
  ["", "", EnumTables.fromHostName t.constant ++ " = \x7b"] ++
  t.fromHost.map (fun entry => "    " ++ entry.host.text ++ ": " ++ member entry ++ ",") ++
  ["\x7d", EnumTables.toHostName t.constant ++ " = \x7b"] ++
  t.toHost.map (fun entry => "    " ++ member entry ++ ": " ++ entry.host.text ++ ",") ++
  ["\x7d"]

def ParserConstant.line (p : ParserConstant) : String :=
  p.name ++ ": _parsers.IdiomParser[" ++ p.valueClass ++ "] = _parsers.IdiomParser(" ++
    p.host.text ++ ", " ++ p.reader ++ ")"

namespace Module

def header (source summary : String) : List String :=
  ["# Generated by protoc-gen-idiom. DO NOT EDIT!", "# source: " ++ source,
    "\"\"\"" ++ summary ++ " ``" ++ source ++ "``.\"\"\"", "from __future__ import annotations"]

def lines (m : Module) : List String :=
  let imports := Import.block m.imports
  header m.source "Idiomatic value types and conversions for" ++
  (if imports = [] then [] else "" :: imports) ++
  m.enums.flatMap (·.lines) ++
  m.declarations.flatMap (·.lines) ++
  m.tables.flatMap (·.lines) ++
  m.functions.flatMap (fun function => ["", ""] ++ function.lines "") ++
  (if m.parsers = [] then [] else ["", ""] ++ m.parsers.map (·.line))

def render (m : Module) : String := Code.joinLines m.lines ++ "\n"

end Module

end ProtoBindings.Value
