/-
Reports in each format. A report shows either its languages or its files; the
sums stand at the end of both.
-/
import LineCensus.Json.Writer
import LineCensus.Present.Table
import LineCensus.Xml.Writer
import LineCensus.Yaml.Writer

namespace LineCensus

/-- The formats of reports. -/
inductive OutputFormat where
  | table
  | json
  | yaml
  | xml
deriving DecidableEq, Inhabited

namespace OutputFormat

def name : OutputFormat → String
  | .table => "table"
  | .json => "json"
  | .yaml => "yaml"
  | .xml => "xml"

def ofName? (s : String) : Option OutputFormat := [table, json, yaml, xml].find? (·.name == s)

end OutputFormat

namespace Summary

/-- The data of one file. -/
def document (s : Summary) : Document :=
  .record [("name", .text s.name), ("language", .text s.language), ("code", .count s.code.value),
    ("comments", .count s.comments.value), ("blanks", .count s.blanks.value),
    ("complexity", match s.complexity with
      | some q => .quotient q
      | none => .missing)]

end Summary

/-- The data of all files. -/
def Collection.document (c : Collection) : Document := .list (c.toList.map Summary.document)

namespace Present

/-- The data of a row. -/
def languageDocument (t : LanguageTotals) : Document :=
  .record [("language", .text t.language), ("files", .count t.files.value), ("blanks", .count t.blanks.value),
    ("comments", .count t.comments.value), ("code", .count t.code.value)]

/-- The data of the sums. -/
def totalsDocument (t : Totals) : Document :=
  .record [("files", .count t.files.value), ("blanks", .count t.blanks.value),
    ("comments", .count t.comments.value), ("code", .count t.code.value)]

/-- The data of a report. -/
def document (byFile : Bool) (r : Report) : Document :=
  let shown := if byFile then ("files", r.files.document)
    else ("languages", .list (r.languages.map languageDocument))
  .record [shown, ("total", totalsDocument r.totals)]

/-- The attributes of three counters. -/
def counterAttributes (blank comment code : Count) : List (String × String) :=
  [("blank", toString blank), ("comment", toString comment), ("code", toString code)]

/-- The element of one file; the complexity is left out unless it is a number. -/
def fileElement (s : Summary) : Xml :=
  .element "file" (("name", s.name) :: counterAttributes s.blanks s.comments s.code
    ++ (s.finiteComplexity.map fun q => ("complexity", Decimal.plain.text q)).toList
    ++ [("language", s.language)]) []

/-- The element of one language. -/
def languageElement (t : LanguageTotals) : Xml :=
  .element "language" (("name", t.language) :: ("files_count", toString t.files)
    :: counterAttributes t.blanks t.comments t.code) []

/-- The element of the sums. -/
def totalElement (t : Totals) : Xml :=
  .element "total" (("sum_files", toString t.files) :: counterAttributes t.blanks t.comments t.code) []

/-- The document element of a report. -/
def xml (byFile : Bool) (r : Report) : Xml :=
  let total := totalElement r.totals
  let shown := if byFile then .element "files" [] (r.files.toList.map fileElement ++ [total])
    else .element "languages" [] (r.languages.map languageElement ++ [total])
  .element "results" [] [shown]

/-- A report in a format. -/
def render (format : OutputFormat) (byFile : Bool) (r : Report) : String :=
  match format with
  | .table => if byFile then fileTable r else languageTable r
  | .json => (document byFile r).toJson.pretty ++ "\n"
  | .yaml => Yaml.write (document byFile r)
  | .xml => "<?xml version=\"1.0\" encoding=\"UTF-8\"?>\n" ++ (xml byFile r).write ++ "\n"

end Present

end LineCensus
