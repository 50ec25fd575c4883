/-
Sums over files: for each language, and over all of them.
-/
import LineCensus.Summary
import LineCensus.Text.Ascii
import LineCensus.Text.Blank

namespace LineCensus

/-- Sums over all files. -/
structure Totals where
  files : Count := 0
  blanks : Count := 0
  comments : Count := 0
  code : Count := 0
deriving DecidableEq, Inhabited

/-- Sums over the files of one language. -/
structure LanguageTotals where
  language : String
  files : Count := 0
  blanks : Count := 0
  comments : Count := 0
  code : Count := 0
deriving DecidableEq, Inhabited

namespace LanguageTotals

/-- The sums with one more file. -/
def add (t : LanguageTotals) (s : Summary) : LanguageTotals :=
  { t with
    files := t.files.increment
    blanks := t.blanks + s.blanks
    comments := t.comments + s.comments
    code := t.code + s.code }

/-- Enter a file into rows that are ordered by language. A file that could not
be read counts as a file. -/
def enter (s : Summary) : List LanguageTotals → List LanguageTotals
  | [] => [{ language := s.language : LanguageTotals }.add s]
  | row :: rows =>
    match compare s.language row.language with
    | .lt => { language := s.language : LanguageTotals }.add s :: row :: rows
    | .eq => row.add s :: rows
    | .gt => row :: enter s rows

/-- One row for each language that occurs, ordered by its name. -/
def group (ss : List Summary) : List LanguageTotals := ss.foldl (fun rows s => enter s rows) []

end LanguageTotals

namespace Totals

/-- The sums over files. -/
def ofSummaries (ss : List Summary) : Totals :=
  ss.foldl (fun t s => ⟨t.files.increment, t.blanks + s.blanks, t.comments + s.comments, t.code + s.code⟩) {}

/-- The sums over the rows of languages. -/
def ofLanguages (rows : List LanguageTotals) : Totals :=
  rows.foldl (fun t r => ⟨t.files + r.files, t.blanks + r.blanks, t.comments + r.comments, t.code + r.code⟩) {}

end Totals

/-- What the rows of languages are ordered by. -/
inductive SortKey where
  | name
  | files
  | blank
  | comment
  | code
deriving DecidableEq, Inhabited

namespace SortKey

def text : SortKey → String
  | .name => "name"
  | .files => "files"
  | .blank => "blank"
  | .comment => "comment"
  | .code => "code"

def ofName? (s : String) : Option SortKey := [name, files, blank, comment, code].find? (·.text == s)

/-- The key a name stands for; white space around it and letter case do not
count, and the plural will do. -/
def parse? (s : String) : Option SortKey :=
  match Text.lower (String.ofList (Text.trim s.toList)) with
  | "name" => some .name
  | "files" => some .files
  | "blank" | "blanks" => some .blank
  | "comment" | "comments" => some .comment
  | "code" => some .code
  | _ => none

/-- Numbers go from the greatest down, names go up; rows with the same number go
by name. -/
def compare (k : SortKey) (a b : LanguageTotals) : Ordering :=
  let byNumber : Ordering := match k with
    | .name => .eq
    | .files => Count.compare b.files a.files
    | .blank => Count.compare b.blanks a.blanks
    | .comment => Count.compare b.comments a.comments
    | .code => Count.compare b.code a.code
  byNumber.then (Ord.compare a.language b.language)

/-- The rows in order. -/
def sort (k : SortKey) (rows : List LanguageTotals) : List LanguageTotals :=
  rows.mergeSort fun a b => k.compare a b != .gt

end SortKey

end LineCensus
