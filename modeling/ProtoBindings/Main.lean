import ProtoBindings.CommandLine.Session

namespace ProtoBindings.Main

open CommandLine (FilePath FileTree Settings)

def logVariable : String := "PROTOC_IDIOM_LOG_LEVEL"

def printErrors (lines : List String) : IO Unit := do
  for line in lines do IO.eprintln line

def runPlugin : IO UInt32 := do
  let level ← IO.getEnv logVariable
  let input ← (← IO.getStdin).readBinToEnd
  match Plugin.execute Plugin.hostLibrary level input.toList with
  | .unknownLevel name =>
    IO.eprintln (Plugin.unknownLevelMessage name)
    return 1
  | .done status output records =>
    printErrors (Plugin.logLines records)
    let stdout ← IO.getStdout
    stdout.write ⟨output.toArray⟩
    stdout.flush
    return status.toUInt32

def treeWith (path : Option String) : IO FileTree := do
  match path with
  | none => return {}
  | some path =>
    try
      let content ← IO.FS.readBinFile path
      return FileTree.insert {} path content.toList
    catch _ => return {}

def writeNew (before after : FileTree) : IO Unit := do
  for (place, content) in after.files do
    unless before.files.any (·.1 == place) do
      IO.FS.createDirAll (FilePath.ofText place.toText).parent.toText
      IO.FS.writeBinFile place.toText ⟨content.toArray⟩

def descriptorSetOf (arguments : List String) : Option String :=
  match CommandLine.readArguments arguments with
  | .ok (.settings s) => s.descriptorSet
  | _ => none

def runCommand (arguments : List String) : IO UInt32 := do
  let level ← IO.getEnv logVariable
  let files ← treeWith (descriptorSetOf arguments)
  let outcome := CommandLine.session { files, logLevel := level } arguments
  writeNew files outcome.files
  printErrors outcome.stderr
  IO.print outcome.stdout
  match outcome.ending with
  | .exit status => return status.toUInt32
  | .failed error =>
    IO.eprintln error.message
    return 1

end ProtoBindings.Main

def main (arguments : List String) : IO UInt32 :=
  if arguments.isEmpty then ProtoBindings.Main.runPlugin else ProtoBindings.Main.runCommand arguments
