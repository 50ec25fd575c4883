/-
The result of a run.
-/
import LineCensus.Entry
import LineCensus.Failure
import LineCensus.Summary.Collection
import LineCensus.Totals

namespace LineCensus

/-- Files in their order, languages in theirs, and the sums. -/
structure Report where
  files : Collection
  languages : List LanguageTotals
  totals : Totals
deriving Inhabited

namespace Report

/-- The report on these files. -/
def ofSummaries (ss : List Summary) (key : SortKey) : Report :=
  let files := Collection.ofList ss
  { files := files
    languages := key.sort (LanguageTotals.group files.toList)
    totals := .ofSummaries files.toList }

/-- Select, measure, report. A failure of the first two steps is put down to its
step; the reason tells how many roots or files it had to deal with. -/
def run (roots : Nat) (key : SortKey) (entries : Except Failure (List Entry))
    (measure : List Entry → Except Failure (List Summary)) : Except Failure Report :=
  match entries with
  | .error f => .error (.fileCollection s!"{roots} roots" (some f))
  | .ok entries =>
    match measure entries with
    | .error f => .error (.measurement s!"{entries.length} files" (some f))
    | .ok summaries => .ok (ofSummaries summaries key)

end Report

end LineCensus
