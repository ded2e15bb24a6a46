import ProtoBindings.Plugin.Config
import ProtoBindings.Plugin.Library
import ProtoBindings.Resolver.Basic

namespace ProtoBindings.Plugin

open Descriptor (Request)
open Schema (FileUnit)

inductive Stage
  | requestParsing
  | generation
  deriving DecidableEq, Repr

def Stage.tag : Stage → String
  | requestParsing => "request-parsing"
  | generation => "generation"

inductive Failure
  | refusedRequest (detail : String)
  | config (error : ConfigError)
  | resolver (error : Resolver.Error)
  | mapping (error : Mapping.Error)
  deriving DecidableEq, Repr

namespace Failure

def stage : Failure → Stage
  | refusedRequest _ => .requestParsing
  | _ => .generation

def detail : Failure → String
  | refusedRequest detail => "Failed to parse CodeGeneratorRequest: " ++ detail
  | config error => error.message
  | resolver error =>
    match error with
    | .missingDependency _ _ | .unknownFile _ | .undefinedType _ _ => error.message
    | .missingEntryField _ | .undeclared _ => "KeyError: " ++ error.message
    | .oneofOutOfRange => "IndexError: " ++ error.message
    | .deepMapEntry _ => "RecursionError: " ++ error.message
  | mapping error =>
    match error with
    | .unknownScalar _ | .unknownEnum _ | .unknownMember _ => "KeyError: " ++ error.message
    | .undeclared | .missing => "AttributeError: " ++ error.message
    | .template _ => "ValueError: " ++ error.message

def message (f : Failure) : String := "[" ++ f.stage.tag ++ "] " ++ f.detail

end Failure

structure Generated where
  records : List LogRecord
  result : Except Failure (List Output)

/-- The level that the configuration sets, if there is one, and what follows. -/
structure Run where
  level : Option LogLevel
  records : List LogRecord
  result : Except Failure (List Output)

def resolvedRecord (unit : FileUnit) : LogRecord where
  level := .debug
  text := "Resolved " ++ unit.name ++ ": " ++ toString unit.messages.length ++ " message(s), " ++
    toString unit.enums.length ++ " enum(s), " ++ toString unit.services.length ++ " service(s)"

def outputRecords (unit : FileUnit) (outputs : List Output) : List LogRecord :=
  outputs.map (fun o => ⟨.debug, "Generated " ++ o.path ++ " from " ++ unit.name⟩) ++
    outputs.map fun o => ⟨.info, "Generated " ++ o.path⟩

def skippedRecord (file : String) : LogRecord := ⟨.info, "Skipping excluded file " ++ file⟩

def generateFile (config : Config) (resolver : Resolver) (file : String) :
    Except Failure (FileUnit × List Output) := do
  let unit ← (resolver.get file).mapError .resolver
  let options : OutputOptions := ⟨config.packagePrefix, config.services⟩
  let enums := Mapping.EnumIndex.ofUnits resolver.files
  let outputs ← (Output.ofUnit options enums unit).mapError .mapping
  return (unit, outputs)

def generateFiles (config : Config) (resolver : Resolver) : List String → Generated
  | [] => ⟨[], .ok []⟩
  | file :: rest =>
    if config.isExcluded file then
      let later := generateFiles config resolver rest
      ⟨skippedRecord file :: later.records, later.result⟩
    else
      match generateFile config resolver file with
      | .error failure => ⟨[], .error failure⟩
      | .ok (unit, outputs) =>
        let later := generateFiles config resolver rest
        ⟨outputRecords unit outputs ++ later.records, later.result.map (outputs ++ ·)⟩

def generate (environment : Option String) (request : Request) : Run :=
  match Config.ofParameter request.parameter environment with
  | .error error => ⟨none, [], .error (.config error)⟩
  | .ok config =>
    let (units, resolved) := Resolver.addAll {} request.files
    let records := units.map resolvedRecord
    match resolved with
    | .error error => ⟨some config.level, records, .error (.resolver error)⟩
    | .ok resolver =>
      let generated := generateFiles config resolver request.filesToGenerate
      ⟨some config.level, records ++ generated.records, generated.result⟩

def run (library : Library) (environment : Option String) (bytes : Wire.Bytes) : Run :=
  match library.readRequest bytes with
  | .error detail => ⟨none, [], .error (.refusedRequest detail)⟩
  | .ok request => generate environment request

inductive Exit
  | unknownLevel (name : String)
  | done (status : Nat) (output : Wire.Bytes) (records : List LogRecord)
  deriving DecidableEq, Repr

def unknownLevelMessage (name : String) : String := "Unknown level: " ++ Text.quotation name

def execute (library : Library) (environment : Option String) (input : Wire.Bytes) : Exit :=
  let name := Unicode.upper (environment.getD "WARNING")
  match LogLevel.ofName? name with
  | none => .unknownLevel name
  | some level =>
    let run := run library environment input
    let shown := shownAt (run.level.getD level)
    match run.result with
    | .ok outputs => .done 0 (library.writeResponse ⟨optionalFields, outputs⟩) (shown run.records)
    | .error failure =>
      .done 1 [] (shown (run.records ++
        [⟨.error, "protoc-gen-idiom failed: " ++ failure.message⟩]))

/-- A request for a set of files. Without names it asks for all files that are not excluded. -/
def buildRequest (environment : Option String) (files : List Descriptor.File)
    (names : List String) (parameter : String) : Except ConfigError Request :=
  match names with
  | _ :: _ => .ok ⟨names, parameter, files⟩
  | [] => do
    let config ← Config.ofParameter parameter environment
    return ⟨(files.map (·.name)).filter (!config.isExcluded ·), parameter, files⟩

end ProtoBindings.Plugin
