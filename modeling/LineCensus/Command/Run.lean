/-
A run: load the languages, choose files, measure them, present the report.
-/
import LineCensus.Batch
import LineCensus.Command.Configuration
import LineCensus.Language.Load
import LineCensus.Present.Languages
import LineCensus.Report
import LineCensus.Selection.Choose

namespace LineCensus.Command

/-- Why a run fails, by the step that failed. -/
inductive RunFailure where
  | loading (path : Path) (failure : Failure)
  | overriding (path : Path) (failure : Failure)
  | analysis (failure : Failure)

namespace RunFailure

/-- The step and the failure with its causes, on one line. -/
def text : RunFailure → String
  | .loading path f => s!"failed to load {path.display}: {f.chain}"
  | .overriding path f => s!"invalid definitions in {path.display}: {f.message}"
  | .analysis f => s!"failed to analyze sources: {f.chain}"

end RunFailure

/-- The known languages, with those of a file of definitions in front. -/
def languages (t : FileTree) (definitions : Option Path) : Except RunFailure Language.Registry :=
  match definitions with
  | none => .ok .builtin
  | some path =>
    match Language.load t path with
    | .error f => .error (.loading path f)
    | .ok ds =>
      (Language.Registry.builtin.override ds).mapError fun refusal =>
        .overriding path (.invalidLanguageDefinition refusal.definition.id refusal.defect.reason)

/-- What a run leaves behind: output or failure, and messages. -/
structure RunResult where
  outcome : Except RunFailure String
  log : Log := []

/-- Choose files, measure them and present the report. -/
def census (t : FileTree) (r : Language.Registry) (c : Configuration) : RunResult :=
  let chosen := Selection.choose .standard t r c.plan
  let (entries, log) := chosen.toOption.getD ([], [])
  let measured := Batch.run t r c.options (c.jobs.getD 1) entries
  let report := Report.run c.plan.roots.length c.sort (chosen.map (·.1)) fun _ => .ok (measured.map (·.summary))
  { outcome := (report.map (Present.render c.format c.byFile)).mapError .analysis
    log := log ++ measured.flatMap (·.log) }

/-- Run a configuration. -/
def run (t : FileTree) (c : Configuration) : RunResult :=
  match languages t c.definitions with
  | .error f => { outcome := .error f }
  | .ok r => if c.showLanguages then { outcome := .ok (Present.languageList r) } else census t r c

end LineCensus.Command
