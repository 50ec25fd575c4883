/-
What a run has to say besides its results: warnings, and on request a record of
every line classified.
-/
namespace LineCensus

/-- How much a message matters, the gravest first. -/
inductive LogLevel where
  | error
  | warn
  | info
  | debug
  | trace
deriving DecidableEq, Inhabited

namespace LogLevel

def name : LogLevel → String
  | .error => "ERROR"
  | .warn => "WARN"
  | .info => "INFO"
  | .debug => "DEBUG"
  | .trace => "TRACE"

/-- The place in the order, from 1. -/
def rank : LogLevel → Nat
  | .error => 1
  | .warn => 2
  | .info => 3
  | .debug => 4
  | .trace => 5

end LogLevel

/-- A message with the part of the program it comes from. -/
structure LogRecord where
  level : LogLevel
  target : String
  text : String
deriving DecidableEq, Inhabited

/-- Messages in the order in which they arose. -/
abbrev Log := List LogRecord

namespace LogRecord

/-- A warning about the file tree. -/
def selectionWarning (text : String) : LogRecord := ⟨.warn, "cloc_lines_infra::filesystem", text⟩

/-- A warning about a file that is being measured. -/
def analysisWarning (text : String) : LogRecord := ⟨.warn, "cloc_lines_infra::measurement::analyzer", text⟩

/-- The target of line traces. -/
def traceTarget : String := "cloc_lines::trace"

end LogRecord

end LineCensus
