/-
What a run is to do, as the arguments say and where they are silent.
-/
import LineCensus.Analysis.Options
import LineCensus.Command.Arguments
import LineCensus.Failure
import LineCensus.Selection.Engine
import LineCensus.Selection.Plan

namespace LineCensus.Command

/-- What a run is to do. -/
structure Configuration where
  plan : Plan
  options : AnalysisOptions := {}
  sort : SortKey := .code
  format : OutputFormat := .table
  byFile : Bool := false
  /-- The number of jobs, if one is asked for. -/
  jobs : Option Nat := none
  definitions : Option Path := none
  showLanguages : Bool := false

namespace Configuration

/-- The failure of an option whose value does not do. -/
def refuse (option value reason : String) : Except Failure Unit := .error (.invalidValue option value reason)

/-- The pattern of an option must be one. -/
def checkPattern (option : String) (text : Option String) : Except Failure Unit :=
  match text with
  | some text =>
    match Engine.standard.compile text with
    | .ok _ => .ok ()
    | .error reason => refuse option text reason
  | none => .ok ()

/-- The configuration that arguments ask for. A number of jobs is tested first, then
the patterns. Without paths the working directory is meant. -/
def ofArguments (a : Arguments) : Except Failure Configuration := do
  if a.jobs == some 0 then refuse "--jobs" "0" "must be at least 1"
  checkPattern "--match" a.matchFile
  checkPattern "--not-match" a.notMatchFile
  checkPattern "--match-dir" a.matchDirectory
  checkPattern "--not-match-dir" a.notMatchDirectory
  return {
    plan := {
      roots := if a.paths.isEmpty then [.ofString "."] else a.paths
      followLinks := a.has .follow
      includeHidden := a.has .hidden
      includeLanguages := a.includeLanguages
      excludeExtensions := a.excludeExtensions
      matchFile := a.matchFile
      notMatchFile := a.notMatchFile
      matchDirectory := a.matchDirectory
      notMatchDirectory := a.notMatchDirectory }
    options := { debugTrace := a.has .debug }
    sort := a.sort.getD .code
    format := a.format.getD .table
    byFile := a.has .byFile
    jobs := a.jobs
    definitions := a.definitions
    showLanguages := a.has .showLanguages }

end Configuration

end LineCensus.Command
