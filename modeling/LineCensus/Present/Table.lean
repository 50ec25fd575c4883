/-
Reports as tables of fixed columns between rules.
-/
import LineCensus.Report
import LineCensus.Text.Pad

namespace LineCensus.Present

/-- The width of a rule, of the names, of the number of files, and of a counter. -/
def ruleWidth : Nat := 79
def nameWidth : Nat := 27
def filesWidth : Nat := 6
def countWidth : Nat := 14

def line (s : String) : String := s ++ "\n"

def rule (width : Nat) : String := line (Text.fill width '-')

/-- The three columns of counters. -/
def counters (blank comment code : String) : String :=
  " " ++ Text.padLeft countWidth blank ++ " " ++ Text.padLeft countWidth comment ++ " "
    ++ Text.padLeft countWidth code

/-- A row of the table of languages. -/
def languageRow (name files blank comment code : String) : String :=
  line (Text.padRight nameWidth name ++ " " ++ Text.padLeft filesWidth files ++ counters blank comment code)

/-- The table of languages. -/
def languageTable (r : Report) : String :=
  let t := r.totals
  rule ruleWidth ++ languageRow "Language" "files" "blank" "comment" "code" ++ rule ruleWidth
    ++ String.join (r.languages.map fun l =>
      languageRow l.language (toString l.files) (toString l.blanks) (toString l.comments) (toString l.code))
    ++ rule ruleWidth
    ++ languageRow "TOTAL" (toString t.files) (toString t.blanks) (toString t.comments) (toString t.code)
    ++ rule ruleWidth

/-- The width of the names of files: that of the longest, or more. -/
def fileNameWidth (files : List Summary) : Nat :=
  (files.map (·.name.length)).foldl max nameWidth

/-- A row of the table of files. -/
def fileRow (width : Nat) (name blank comment code : String) : String :=
  line (Text.padRight width name ++ counters blank comment code)

/-- The table of files. -/
def fileTable (r : Report) : String :=
  let files := r.files.toList
  let width := fileNameWidth files
  let edge := rule (max (width + 3 * (countWidth + 1)) ruleWidth)
  let t := r.totals
  edge ++ fileRow width "File" "blank" "comment" "code" ++ edge
    ++ String.join (files.map fun f =>
      fileRow width f.name (toString f.blanks) (toString f.comments) (toString f.code))
    ++ edge ++ fileRow width "TOTAL" (toString t.blanks) (toString t.comments) (toString t.code) ++ edge

end LineCensus.Present
