/-
Carrying out a plan: the files below its roots that are in a known language and
pass the filters, in the order of their paths, each path once.
-/
import LineCensus.Entry
import LineCensus.Log
import LineCensus.Selection.Filter

namespace LineCensus.Selection

/-- The entry of a file, if its language is known and let pass. -/
def entryOf (r : Language.Registry) (f : Filter) (p : Path) : Option Entry :=
  (r.detect? p).bind fun d => if f.acceptsLanguage d then some ⟨p, d.id⟩ else none

/-- The entry of a file named as a root. -/
def entryAt (r : Language.Registry) (f : Filter) (p : Path) : Option Entry :=
  if f.acceptsFile p then entryOf r f p else none

/-- The entry of a file found below a root. -/
def entryBelow (r : Language.Registry) (f : Filter) (root p : Path) : Option Entry :=
  if f.acceptsParents root p then entryAt r f p else none

/-- The entries a root contributes, with warnings. A root that is missing is kept, to
be reported on later; only its language is tested. -/
def ofRoot (g : Engine) (t : FileTree) (r : Language.Registry) (f : Filter) (p : Plan) (root : Path) :
    List Entry × Log :=
  match t.stat root with
  | .error _ => ((entryOf r f root).toList, [.selectionWarning s!"{root.display}: no such file or directory"])
  | .ok .directory =>
    let found := g.walk t { followLinks := p.followLinks, includeHidden := p.includeHidden, enters := f.enters } root
    (found.filterMap fun
        | .file path => entryBelow r f root path
        | .fault _ => none,
      found.filterMap fun
        | .file _ => none
        | .fault text => some (.selectionWarning s!"{root.display}: {text}"))
  | .ok _ => ((entryAt r f root).toList, [])

/-- Entries in the order of their paths. -/
def sortEntries (es : List Entry) : List Entry := es.mergeSort fun a b => (a.path.compare b.path).isLE

/-- Of neighbours with the same path the first is kept. -/
def dropRepeated : List Entry → List Entry
  | [] => []
  | e :: es => e :: dropFrom e es
where
  dropFrom (kept : Entry) : List Entry → List Entry
    | [] => []
    | e :: es => if kept.path.same e.path then dropFrom kept es else e :: dropFrom e es

/-- The entries of these roots, with warnings in the order of the roots. -/
def ofRoots (g : Engine) (t : FileTree) (r : Language.Registry) (f : Filter) (p : Plan) : List Entry × Log :=
  let results := p.roots.map (ofRoot g t r f p)
  (dropRepeated (sortEntries (results.flatMap (·.1))), results.flatMap (·.2))

/-- Choose the files of a plan. A language that is not known is the first thing to
fail, then a pattern that is none; nothing in the tree makes the choice fail. -/
def choose (g : Engine) (t : FileTree) (r : Language.Registry) (p : Plan) : Except Failure (List Entry × Log) :=
  match p.includeLanguages.find? fun id => (r.get? id).isNone with
  | some id => .error (.unknownLanguage id)
  | none => (Filter.ofPlan g p).map (ofRoots g t r · p)

end LineCensus.Selection
