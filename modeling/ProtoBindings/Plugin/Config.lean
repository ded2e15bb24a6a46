import ProtoBindings.Plugin.Log
import ProtoBindings.Plugin.Parameter
import ProtoBindings.Unicode.Case
import ProtoBindings.Unicode.Identifier

namespace ProtoBindings.Plugin

inductive ConfigError
  | malformedItem (text : String)
  | unknownKey (key : String)
  | notBoolean (key value : String)
  | badPackagePrefix (value : String)
  | unknownLogLevel (value : String)
  deriving DecidableEq, Repr

def ConfigError.message : ConfigError → String
  | malformedItem text => "Malformed plugin parameter " ++ Text.quotation text
  | unknownKey key => "Unknown plugin parameter " ++ Text.quotation key
  | notBoolean key value =>
    "Parameter " ++ Text.quotation key ++ " expects a boolean, got " ++ Text.quotation value
  | badPackagePrefix value =>
    "package_prefix must be a dotted Python module path, got " ++ Text.quotation value
  | unknownLogLevel value => "Unknown log_level " ++ Text.quotation value

structure Config where
  packagePrefix : Option String := none
  services : Bool := true
  exclude : List String := []
  logLevel : String := "WARNING"
  deriving DecidableEq, Repr

namespace Config

def levelOf? (name : String) : Option LogLevel := LogLevel.ofName? (Unicode.upper name)

def level (config : Config) : LogLevel := (levelOf? config.logLevel).getD .warning

def isModulePath (path : String) : Bool := (Text.splitOn '.' path).all Unicode.isIdentifier

def validate (config : Config) : Except ConfigError Config :=
  match config.packagePrefix.filter (!isModulePath ·), levelOf? config.logLevel with
  | some path, _ => .error (.badPackagePrefix path)
  | none, none => .error (.unknownLogLevel config.logLevel)
  | none, some _ => .ok config

/-- Starts of the names of files for which nothing is ever generated. -/
def alwaysExcluded : List String :=
  ["google/", "validate/", "protobuf/", "googleapis/", "grpc/"]

def excludedStarts (config : Config) : List String := alwaysExcluded ++ config.exclude

def isExcluded (config : Config) (file : String) : Bool :=
  config.excludedStarts.any (Text.startsWith file)

def boolean? (value : String) : Option Bool :=
  let value := Unicode.lower value
  if ["", "true", "1", "yes", "on"].contains value then some true
  else if ["false", "0", "no", "off"].contains value then some false
  else none

def nonempty (text : String) : Option String := if text = "" then none else some text

def set (config : Config) (key value : String) : Except ConfigError Config :=
  if key = "package_prefix" then .ok { config with packagePrefix := nonempty value }
  else if key = "services" then
    match boolean? value with
    | some services => .ok { config with services }
    | none => .error (.notBoolean key value)
  else if key = "exclude" then
    .ok { config with exclude := (Text.splitOn ':' value).filter (· ≠ "") }
  else if key = "log_level" then .ok { config with logLevel := Unicode.upper value }
  else .error (.unknownKey key)

/-- The environment sets the log level where the parameter does not. -/
def withEnvironment (config : Config) (options : Options) (environment : Option String) : Config :=
  match options.get? "log_level", environment.bind nonempty with
  | none, some name => { config with logLevel := Unicode.upper name }
  | _, _ => config

def ofParameter (parameter : String) (environment : Option String) : Except ConfigError Config := do
  let options ← (parseParameter parameter).mapError .malformedItem
  let config ← options.foldlM (fun (config : Config) (key, value) => config.set key value) {}
  (config.withEnvironment options environment).validate

end Config

end ProtoBindings.Plugin
