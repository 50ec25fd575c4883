/-
A table of languages with an index for each way of asking: by id, by extension,
by file name. The indexes hold places in the table; of several definitions with
one key the first keeps its place.
-/
import Std.Data.HashMap
import LineCensus.Language.Builtin
import LineCensus.Path

namespace LineCensus.Language

/-- Places in the table by key. -/
abbrev Index := Std.HashMap String Nat

/-- Enter a key for a place, unless it has one. -/
def Index.enter (index : Index) (place : Nat) (key : String) : Index := index.insertIfNew key place

/-- A table of languages. -/
structure Registry where
  definitions : List Definition := []
  byId : Index := ∅
  byExtension : Index := ∅
  byFileName : Index := ∅

namespace Registry

/-- Add a definition at the end of the table. -/
def push (r : Registry) (place : Nat) (d : Definition) : Registry :=
  { r with
    byId := r.byId.enter place d.key
    byExtension := (d.extensions.map Definition.extensionKey).foldl (Index.enter · place ·) r.byExtension
    byFileName := d.fileNames.foldl (Index.enter · place ·) r.byFileName }

/-- The table of these definitions, unchecked. -/
def index (ds : List Definition) : Registry :=
  ds.zipIdx.foldl (fun r (d, place) => r.push place d) { definitions := ds }

/-- The table of the known languages. -/
def builtin : Registry := index Language.builtin

/-- Why a list of definitions is refused: the first definition at fault, and its defect. -/
structure Refusal where
  definition : Definition
  defect : Defect
deriving DecidableEq

/-- The first fault of a list: a definition that is defective or repeats one of
the ids seen before it. -/
def refusal? (seen : List String) : List Definition → Option Refusal
  | [] => none
  | d :: ds =>
    match d.defect? with
    | some defect => some ⟨d, defect⟩
    | none => if seen.contains d.key then some ⟨d, .duplicateId⟩ else refusal? (d.key :: seen) ds

/-- The table of these definitions, if none is at fault. -/
def ofDefinitions (ds : List Definition) : Except Refusal Registry :=
  match refusal? [] ds with
  | some refusal => .error refusal
  | none => .ok (index ds)

/-- The table in which `extra` comes first and takes the place of definitions
with the same ids. -/
def override (r : Registry) (extra : List Definition) : Except Refusal Registry :=
  (ofDefinitions extra).map fun added =>
    index (added.definitions ++ r.definitions.filter fun d => !added.byId.contains d.key)

/-- The definition at the place an index gives for a key. -/
def look (r : Registry) (index : Index) (key : String) : Option Definition :=
  index[key]?.bind (r.definitions[·]?)

/-- The language with an id. -/
def get? (r : Registry) (id : String) : Option Definition := r.look r.byId (Text.lower id)

/-- The language that claims an extension. -/
def byExtension? (r : Registry) (extension : String) : Option Definition :=
  r.look r.byExtension (Definition.extensionKey extension)

/-- The language that claims a file name. -/
def byFileName? (r : Registry) (name : String) : Option Definition := r.look r.byFileName name

/-- The language of a file: by its whole name if a language claims that, else by
its extension. -/
def detect? (r : Registry) (p : Path) : Option Definition :=
  (p.fileNameText?.bind r.byFileName?).or (p.extensionText?.bind r.byExtension?)

def isEmpty (r : Registry) : Bool := r.definitions.isEmpty

end Registry

end LineCensus.Language
