/-
A whole invocation: from the arguments and the environment to what is written and the
exit status.
-/
import LineCensus.Command.LogFilter
import LineCensus.Command.Run
import LineCensus.Text.Pad

namespace LineCensus.Command

/-- The program's name and version. -/
def versionText : String := "cloc_lines 0.3.0\n"

def usageText : String := "Usage: cloc_lines [OPTIONS] [PATHS]...\n"

/-- What an invocation writes, and its exit status. -/
structure SessionResult where
  exitCode : UInt32 := 0
  output : String := ""
  errors : String := ""
deriving Inhabited

namespace SessionResult

/-- A message as a line; the lines of a long one are indented. -/
def logLine (r : LogRecord) : String :=
  let text := r.text.toList.flatMap fun c => if c == '\n' then "\n    ".toList else [c]
  s!"[{Text.padRight 5 r.level.name} {r.target}] " ++ String.ofList text ++ "\n"

/-- The messages that a filter shows, after its complaints. -/
def logText (f : LogFilter) (log : Log) : String :=
  String.join (f.complaints.map (· ++ "\n")) ++ String.join ((log.filter f.shows).map logLine)

def errorLine (text : String) : String := s!"Error: {text}\n"

/-- What arguments that lead to no run give. -/
def ofStop : Stop → SessionResult
  | .help => { output := usageText }
  | .version => { output := versionText }
  | _ => { exitCode := 2, errors := usageText }

end SessionResult

/-- Run the program. The filter of messages is the one given, else the standard one. -/
def session (t : FileTree) (filter : Option String) (arguments : List String) : SessionResult :=
  match Arguments.parse arguments with
  | .error stop => .ofStop stop
  | .ok a =>
    let f := LogFilter.parse (filter.getD (LogFilter.standard (a.has .debug)))
    match Configuration.ofArguments a with
    | .error e => { exitCode := 1, errors := SessionResult.logText f [] ++ SessionResult.errorLine e.message }
    | .ok c =>
      let result := run t c
      let log := SessionResult.logText f result.log
      match result.outcome with
      | .ok output => { output, errors := log }
      | .error e => { exitCode := 1, errors := log ++ SessionResult.errorLine e.text }

end LineCensus.Command
