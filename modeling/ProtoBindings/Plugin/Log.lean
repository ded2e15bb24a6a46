import ProtoBindings.Text.Basic

namespace ProtoBindings.Plugin

inductive LogLevel
  | notSet
  | debug
  | info
  | warning
  | error
  | critical
  deriving DecidableEq, Repr

namespace LogLevel

def names : List (String × LogLevel) :=
  [("CRITICAL", critical), ("FATAL", critical), ("ERROR", error), ("WARN", warning),
    ("WARNING", warning), ("INFO", info), ("DEBUG", debug), ("NOTSET", notSet)]

def ofName? (name : String) : Option LogLevel := names.lookup name

def name : LogLevel → String
  | notSet => "NOTSET"
  | debug => "DEBUG"
  | info => "INFO"
  | warning => "WARNING"
  | error => "ERROR"
  | critical => "CRITICAL"

def rank : LogLevel → Nat
  | notSet => 0
  | debug => 10
  | info => 20
  | warning => 30
  | error => 40
  | critical => 50

/-- The level that applies where none is set is that of warnings. -/
def threshold (level : LogLevel) : Nat := if level = notSet then warning.rank else level.rank

end LogLevel

structure LogRecord where
  level : LogLevel
  text : String
  deriving DecidableEq, Repr

def LogRecord.line (r : LogRecord) : String := r.level.name ++ " | " ++ r.text

/-- The lines of a log. Those of a record with line breaks follow each other. -/
def logLines (records : List LogRecord) : List String :=
  Text.printedLines (records.map (·.line))

def shownAt (level : LogLevel) (records : List LogRecord) : List LogRecord :=
  records.filter fun r => decide (level.threshold ≤ r.level.rank)

end ProtoBindings.Plugin
