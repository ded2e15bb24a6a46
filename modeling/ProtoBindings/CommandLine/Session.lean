import ProtoBindings.CommandLine.Arguments
import ProtoBindings.CommandLine.FileTree
import ProtoBindings.Plugin.Run

namespace ProtoBindings.CommandLine

open Wire (Bytes)

inductive Compiler
  | absent
  | fails (errors : Bytes)
  | yields (descriptorSet : Bytes)
  deriving DecidableEq, Repr

structure Surroundings where
  library : Plugin.Library := Plugin.hostLibrary
  files : FileTree := {}
  compiler : Compiler := .absent
  temporary : String := ""
  logLevel : Option String := none

inductive Error
  | file (error : FileError)
  | refusedSet (detail : String)
  | noSources
  | compilerMissing
  | compilerFailed (errors : String)
  deriving DecidableEq, Repr

def Error.message : Error → String
  | file error => error.message
  | refusedSet detail => detail
  | noSources => "'NoneType' object is not iterable"
  | compilerMissing =>
    "'protoc' not found. Please install Protocol Buffers compiler and ensure it is in PATH."
  | compilerFailed errors => "protoc failed: " ++ errors

inductive Ending
  | exit (status : Nat)
  | failed (error : Error)
  deriving DecidableEq, Repr

structure Outcome where
  ending : Ending
  stdout : String := ""
  stderr : List String := []
  files : FileTree
  command : Option (List String) := none

def sourceDirectories (protos : List String) : List String :=
  (protos.map fun path => (FilePath.ofText path).parent.toText).eraseDups.mergeSort (· ≤ ·)

def compileCommand (temporary : String) (includes protos : List String) : List String :=
  ["protoc", "--include_imports",
    "--descriptor_set_out=" ++ temporary ++ "/descriptor_set.pb"] ++
    includes.flatMap (fun directory => ["-I", directory]) ++ protos

def parseSet (library : Plugin.Library) (content : Bytes) : Except Error (List Descriptor.File) :=
  (library.readFileSet content).mapError .refusedSet

def compile (library : Plugin.Library) : Compiler → Except Error (List Descriptor.File)
  | .absent => .error .compilerMissing
  | .fails errors => .error (.compilerFailed (Text.Utf8.decodeDropping errors))
  | .yields content => parseSet library content

def loadFiles (around : Surroundings) (s : Settings) :
    Option (List String) × Except Error (List Descriptor.File) :=
  match s.descriptorSet.bind Plugin.Config.nonempty, s.protos with
  | some path, _ => (none, (around.files.read path).mapError .file |>.bind (parseSet around.library))
  | none, none => (none, .error .noSources)
  | none, some protos =>
    let includes := if s.includes = [] then sourceDirectories protos else s.includes
    (some (compileCommand around.temporary includes protos), compile around.library around.compiler)

def writeOutputs (out : FilePath) (tree : FileTree) :
    List Output → FileTree × Except FileError (List String)
  | [] => (tree, .ok [])
  | output :: rest =>
    let path := out.join (.ofText output.path)
    match tree.makeDirectories path.parent with
    | .error error => (tree, .error error)
    | .ok made =>
      match made.write path (Text.Utf8.encode output.content) with
      | .error error => (made, .error error)
      | .ok written =>
        let (final, paths) := writeOutputs out written rest
        (final, paths.map (path.toText :: ·))

def report (paths : List String) : String :=
  if paths = [] then "No files generated.\n"
  else "Generated:\n" ++ "\n".intercalate paths ++ "\n"

def fatal (message : String) : String := "FATAL: " ++ message

def finish (around : Surroundings) (s : Settings) (command : Option (List String))
    (files : List Descriptor.File) : Outcome :=
  match Plugin.buildRequest around.logLevel files s.files s.parameter with
  | .error error =>
    { ending := .exit 1, stderr := [fatal error.message], files := around.files, command }
  | .ok request =>
    let run := Plugin.generate around.logLevel request
    let stderr :=
      (Plugin.shownAt (run.level.getD .warning) run.records).map (·.line)
    match run.result with
    | .error failure =>
      { ending := .exit 1, stderr := stderr ++ [fatal failure.message], files := around.files,
        command }
    | .ok outputs =>
      match writeOutputs (.ofText (s.out.getD "")) around.files outputs with
      | (tree, .error error) => { ending := .failed (.file error), stderr, files := tree, command }
      | (tree, .ok paths) =>
        { ending := .exit 0, stdout := report paths, stderr, files := tree, command }

def session (around : Surroundings) (arguments : List String) : Outcome :=
  match readArguments arguments with
  | .error _ => { ending := .exit 2, files := around.files }
  | .ok .help => { ending := .exit 0, files := around.files }
  | .ok (.settings s) =>
    match loadFiles around s with
    | (command, .error error) => { ending := .failed error, files := around.files, command }
    | (command, .ok files) => finish around s command files

end ProtoBindings.CommandLine
