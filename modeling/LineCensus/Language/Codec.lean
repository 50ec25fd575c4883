/-
Definitions of languages as JSON values.

The two lists of a grammar stand among the other members of a definition. They
are recognised only after everything else, so unknown members are held on to
until then and must be storable.
-/
import LineCensus.Json.Decode
import LineCensus.Language.Definition

namespace LineCensus

namespace BlockDelimiter

def toJson (d : BlockDelimiter) : Json := .record [("start", .text d.opener), ("end", .text d.closer)]

def ofJson? (v : Json) : Option BlockDelimiter := do
  match ← v.fields? ["start", "end"] 2 with
  | [opener, closer] => return ⟨← Json.required Json.text? opener, ← Json.required Json.text? closer⟩
  | _ => none

end BlockDelimiter

namespace Grammar

def toJson (g : Grammar) : Json :=
  .record [("line_comments", .texts g.lineComments),
    ("block_comments", .array (g.blockComments.map BlockDelimiter.toJson))]

/-- The grammar of its two fields. -/
def ofFields? (lines blocks : Option Json) : Option Grammar := do
  return ⟨← Json.withDefault (Json.list? Json.text?) [] lines,
    ← Json.withDefault (Json.list? BlockDelimiter.ofJson?) [] blocks⟩

def ofJson? (v : Json) : Option Grammar := do
  match ← v.fields? ["line_comments", "block_comments"] 0 with
  | [lines, blocks] => ofFields? lines blocks
  | _ => none

end Grammar

namespace Language.Definition

def toJson (d : Definition) : Json :=
  .record [("id", .text d.id), ("display_name", .text d.displayName),
    ("extensions", .texts d.extensions), ("file_names", .texts d.fileNames),
    ("line_comments", .texts d.grammar.lineComments),
    ("block_comments", .array (d.grammar.blockComments.map BlockDelimiter.toJson))]

/-- The members that are read at once. -/
def ownMembers : List String := ["id", "display_name", "extensions", "file_names"]

/-- A definition is always an object. `depth` bounds how deep the members that
are held on to may be nested. -/
def ofJson? (depth : Nat) (v : Json) : Option Definition := do
  let ms ← v.members?
  guard (ms.all fun (k, v) => ownMembers.contains k || v.isStorable depth)
  let texts := Json.withDefault (Json.list? Json.text?) []
  return {
    id := ← Json.required Json.text? (← Json.member? ms "id")
    displayName := ← Json.withDefault Json.text? "" (← Json.member? ms "display_name")
    extensions := ← texts (← Json.member? ms "extensions")
    fileNames := ← texts (← Json.member? ms "file_names")
    grammar := ← Grammar.ofFields? (← Json.member? ms "line_comments") (← Json.member? ms "block_comments") }

end Language.Definition

end LineCensus
