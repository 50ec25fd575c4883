/-
Measuring many files: one after another, or dealt out to workers. A worker measures
its files one after another and reuses one buffer for all of them; results come back
in the order of the entries, whichever worker had them.
-/
import LineCensus.Analysis.Options
import LineCensus.Analysis.Stream
import LineCensus.Entry
import LineCensus.Files.Tree
import LineCensus.Language.Registry

namespace LineCensus

/-- What measuring a file gives. -/
structure Measured where
  summary : Summary
  log : Log := []
deriving DecidableEq, Inhabited

/-- What opens files by name: it gives the stream of a file, or says why it cannot. -/
abbrev Opener := String → Except String Stream

namespace Batch

/-- The bytes of the file that a name stands for, or why it cannot be opened. -/
def openNamed (t : FileTree) (name : String) : Except String Stream :=
  match t.stat (.ofString name) with
  | .ok (.file bytes) => .ok { bytes }
  | .ok _ => .error s!"{name} is a directory"
  | .error fault => .error fault.text

/-- Measure the file of an entry. It is opened by the name it has in reports; a file
that cannot be opened, or whose language is not known, counts as unreadable. -/
def measureFrom (source : Opener) (r : Language.Registry) (o : AnalysisOptions) (buffer : LineBuffer) (e : Entry) :
    Measured × LineBuffer :=
  let name := e.name
  match r.get? e.languageId with
  | none =>
    (⟨.unreadable name e.languageId, [.analysisWarning s!"{name}: unknown language '{e.languageId}'"]⟩, buffer)
  | some d =>
    match source name with
    | .error reason => (⟨.unreadable name d.label, [.analysisWarning s!"{name}: cannot open: {reason}"]⟩, buffer)
    | .ok stream =>
      let outcome := Analysis.run name d.grammar o.debugTrace stream buffer
      (⟨outcome.summary name d.label, outcome.log⟩, outcome.buffer)

/-- Measure the file that an entry stands for in a tree. -/
def measure (t : FileTree) (r : Language.Registry) (o : AnalysisOptions) (buffer : LineBuffer) (e : Entry) :
    Measured × LineBuffer := measureFrom (openNamed t) r o buffer e

/-- Measure entries one after another, handing the buffer on. -/
def inTurn (source : Opener) (r : Language.Registry) (o : AnalysisOptions) (buffer : LineBuffer) :
    List Entry → List Measured
  | [] => []
  | e :: es =>
    let (measured, buffer) := measureFrom source r o buffer e
    measured :: inTurn source r o buffer es

/-- Which entries each worker measures, by their places in the list and in its order. -/
abbrev Schedule := List (List Nat)

/-- Every place below `n` dealt to the workers in turn. -/
def Schedule.deal (workers n : Nat) : Schedule :=
  (List.range workers).map fun w => (List.range n).filter (· % workers == w)

/-- What a worker brings back: its results, each with its place. -/
def work (source : Opener) (r : Language.Registry) (o : AnalysisOptions) (es : List Entry) (places : List Nat) :
    List (Nat × Measured) :=
  let own := places.filterMap fun i => es[i]?.map (i, ·)
  (own.map (·.1)).zip (inTurn source r o {} (own.map (·.2)))

/-- Measure entries on a schedule, results in the order of the entries. -/
def onSchedule (source : Opener) (r : Language.Registry) (o : AnalysisOptions) (es : List Entry) (s : Schedule) :
    List Measured :=
  let results := s.flatMap (work source r o es)
  (List.range es.length).filterMap (List.lookup · results)

/-- Fewer entries than this are not dealt out. -/
def sharingThreshold : Nat := 10

/-- The number of workers that a number of jobs asks for: one at least. -/
def workers (jobs : Nat) : Nat := max jobs 1

/-- Measure entries with a number of jobs, their files opened by a source. -/
def runFrom (source : Opener) (r : Language.Registry) (o : AnalysisOptions) (jobs : Nat) (es : List Entry) :
    List Measured :=
  if es.length < sharingThreshold || workers jobs == 1 then inTurn source r o {} es
  else onSchedule source r o es (.deal (min (workers jobs) es.length) es.length)

/-- Measure the entries of a tree with a number of jobs. -/
def run (t : FileTree) (r : Language.Registry) (o : AnalysisOptions) (jobs : Nat) (es : List Entry) : List Measured :=
  runFrom (openNamed t) r o jobs es

end Batch

end LineCensus
