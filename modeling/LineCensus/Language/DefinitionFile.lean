/-
Files that define languages, in YAML or JSON: a record whose field `languages`
lists them. Reading a file ends with a check of each definition taken alone.
-/
import LineCensus.Failure
import LineCensus.Json.Reader
import LineCensus.Language.Codec
import LineCensus.Yaml.Decode

namespace LineCensus.Language

/-- How deep a text may be nested: values inside 127 others in JSON, 128 in YAML. -/
def jsonDepth : Nat := 127
def yamlDepth : Nat := 128

namespace Definition

/-- The definitions of a JSON text. The file, its list and each definition take
one level of nesting. -/
def listOfJson? (text : String) : Option (List Definition) := do
  match ← (← Json.parse? text).fields? ["languages"] 0 with
  | [languages] => Json.withDefault (Json.list? (ofJson? (jsonDepth - 3))) [] languages
  | _ => none

end Definition

/-- A delimiter that was held on to. -/
def delimiterOfHeld? (v : Yaml.Held) : Option BlockDelimiter := do
  match ← v.fields? ["start", "end"] with
  | [some opener, some closer] => return ⟨← opener.text?, ← closer.text?⟩
  | _ => none

/-- A field that stands at most once. -/
def once? (entries : List (String × α)) (name : String) : Option (Option α) :=
  match entries.filter (·.1 == name) with
  | [] => some none
  | [(_, v)] => some (some v)
  | _ => none

namespace Definition

/-- A definition in YAML. As in JSON, fields other than its own four are held on to. -/
def ofYaml? (root n : Yaml.Node) : Option Definition := do
  let entries ← root.entries? n
  let held ← (entries.filter fun (k, _) => !ownMembers.contains k).mapM fun (k, v) => do
    return (k, ← root.hold (yamlDepth - 3) v)
  let own (name : String) := once? entries name
  let texts (field : Option Yaml.Node) : Option (List String) :=
    (field.map (root.list? root.text?)).getD (some [])
  let listed {α : Type} (f : Yaml.Held → Option α) (name : String) : Option (List α) := do
    match ← once? held name with
    | none => return []
    | some v => v.list? f
  return {
    id := ← (← own "id").bind root.text?
    displayName := ← ((← own "display_name").map root.text?).getD (some "")
    extensions := ← texts (← own "extensions")
    fileNames := ← texts (← own "file_names")
    grammar :=
      ⟨← listed Yaml.Held.text? "line_comments", ← listed delimiterOfHeld? "block_comments"⟩ }

/-- The definitions of a YAML text. -/
def listOfYaml? (text : String) : Option (List Definition) := do
  let root ← Yaml.Node.ofText? text
  match ← once? (← root.entries? root) "languages" with
  | none => return []
  | some n => root.list? (ofYaml? root) n

end Definition

/-- Whether a file's name says that it is YAML. -/
def isYaml (p : Path) : Bool :=
  p.extensionText?.any fun e => Text.sameLetters e "yml" || Text.sameLetters e "yaml"

/-- The failure of a text that is not in its format, with what was being read. -/
def unreadableText (p : Path) (format : String) : Failure :=
  .context s!"language definitions in {p.display}" (.serialization format "not a list of language definitions")

/-- The definitions of a file's text, each of them free of defects. -/
def definitionsOf (p : Path) (text : String) : Except Failure (List Definition) := do
  let ds ←
    if isYaml p then (Definition.listOfYaml? text).elim (.error (unreadableText p "YAML")) .ok
    else (Definition.listOfJson? text).elim (.error (unreadableText p "JSON")) .ok
  match ds.findSome? fun d => d.defect?.map fun e => (d.id, e) with
  | some (id, e) => .error (.invalidLanguageDefinition id e.reason)
  | none => .ok ds

end LineCensus.Language
