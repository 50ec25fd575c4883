/-
Plans, chosen files and the options of an analysis as JSON values.
-/
import LineCensus.Analysis.Options
import LineCensus.Entry
import LineCensus.Json.Decode
import LineCensus.Selection.Plan

namespace LineCensus

/-- A path as a string. -/
def Path.toJson (p : Path) : Json := .text p.display

def Path.ofJson? (v : Json) : Option Path := v.text?.map Path.ofString

namespace Entry

def toJson (e : Entry) : Json := .record [("path", e.path.toJson), ("language_id", .text e.languageId)]

def ofJson? (v : Json) : Option Entry := do
  match ← v.fields? ["path", "language_id"] 2 with
  | [path, id] => return ⟨← Json.required Path.ofJson? path, ← Json.required Json.text? id⟩
  | _ => none

end Entry

namespace AnalysisOptions

def toJson (o : AnalysisOptions) : Json := .record [("debug_trace", .bool o.debugTrace)]

def ofJson? (v : Json) : Option AnalysisOptions := do
  match ← v.fields? ["debug_trace"] 1 with
  | [trace] => return ⟨← Json.required Json.bool? trace⟩
  | _ => none

end AnalysisOptions

namespace Plan

def fieldNames : List String :=
  ["roots", "follow_links", "include_hidden", "include_langs", "exclude_exts", "match_file",
    "not_match_file", "match_dir", "not_match_dir"]

def toJson (p : Plan) : Json :=
  .record (fieldNames.zip
    [.array (p.roots.map Path.toJson), .bool p.followLinks, .bool p.includeHidden,
      .texts p.includeLanguages, .texts p.excludeExtensions, .optional .text p.matchFile,
      .optional .text p.notMatchFile, .optional .text p.matchDirectory, .optional .text p.notMatchDirectory])

/-- As an object a plan may leave its patterns out. -/
def ofJson? (v : Json) : Option Plan := do
  match ← v.fields? fieldNames 9 with
  | [roots, follow, hidden, languages, extensions, file, notFile, directory, notDirectory] =>
    let pattern := Json.withDefault (Json.nullable? Json.text?) none
    return {
      roots := ← Json.required (Json.list? Path.ofJson?) roots
      followLinks := ← Json.required Json.bool? follow
      includeHidden := ← Json.required Json.bool? hidden
      includeLanguages := ← Json.required (Json.list? Json.text?) languages
      excludeExtensions := ← Json.required (Json.list? Json.text?) extensions
      matchFile := ← pattern file
      notMatchFile := ← pattern notFile
      matchDirectory := ← pattern directory
      notMatchDirectory := ← pattern notDirectory }
  | _ => none

end Plan

end LineCensus
