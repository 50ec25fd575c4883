/-
The ignore files that bear on a path: those of its directory and of the directories
above. The nearest one that says something decides. Files of the name `.ignore`
come before those of the version control, which count only in its repositories,
and there only up to the nearest repository's top. Last comes the file that a user
keeps for all repositories.
-/
import LineCensus.Files.Tree
import LineCensus.Ignore.Rule

namespace LineCensus.Ignore

/-- The rules that a directory lays down. -/
structure Level where
  directory : Path
  own : List Rule := []
  shared : List Rule := []
  /-- Rules kept inside the repository. -/
  excluded : List Rule := []
  /-- Whether the directory is the top of a repository. -/
  hasRepository : Bool := false

/-- A path without a dot and a slash in front. -/
def withoutDotSlash (bytes : List UInt8) : List UInt8 :=
  match bytes with
  | 46 :: 47 :: rest => rest
  | bytes => bytes

def here : Path := ⟨[Path.dot]⟩

namespace Level

def named (p : Path) (name : String) : Path := p.child (Text.encode name.toList)

/-- The rules of the file at a path; none if it cannot be read. -/
def rulesAt (t : FileTree) (p : Path) : List Rule :=
  match t.read p with
  | .ok bytes => rulesOf bytes
  | .error _ => []

/-- The first line of the file at a path, as text. -/
def firstLine? (t : FileTree) (p : Path) : Option String :=
  match t.read p with
  | .ok bytes => (readableLines bytes).head?.map String.ofList
  | .error _ => none

/-- The directory of a repository's own files. A file in its place tells where the
work tree's files are, and a file there where the common ones are. -/
def repository? (t : FileTree) (directory : Path) : Option Path :=
  let place := named directory ".git"
  match t.stat place with
  | .ok (.file _) => do
    let line ← firstLine? t place
    let mark := "gitdir: ".toList
    unless mark.isPrefixOf line.toList do none
    let own := Path.ofString (String.ofList (line.toList.drop mark.length))
    let common ← firstLine? t (named own "commondir")
    return if common.toList.head? == some '.' then named own common else Path.ofString common
  | _ => some place

/-- The rules of a directory. -/
def ofDirectory (t : FileTree) (directory : Path) : Level where
  directory := ⟨withoutDotSlash directory.bytes⟩
  own := rulesAt t (named directory ".ignore")
  shared := rulesAt t (named directory ".gitignore")
  excluded := match repository? t directory with
    | some p => rulesAt t (named p "info/exclude")
    | none => []
  hasRepository := t.hasPath (named directory ".git") || t.hasPath (named directory ".jj")

/-- The rules of the file that the user keeps, for paths from the directory where
paths start. -/
def ofUser (t : FileTree) (here : Path) : Level where
  directory := here
  shared := match t.userIgnore with
    | some p => rulesAt t p
    | none => []

/-- A path relative to the directory. A path of one name is relative to it already,
and below a directory named by a dot paths are as well. -/
def relative (l : Level) (path : List UInt8) : List UInt8 :=
  let path := withoutDotSlash path
  if l.directory.same here || !path.contains Path.slash then path
  else if l.directory.bytes.isPrefixOf path then
    let rest := path.drop l.directory.bytes.length
    if rest.head? == some Path.slash then rest.tail else rest
  else path

/-- What one of the directory's lists says about a path. -/
def verdict? (rules : Level → List Rule) (isDirectory : Bool) (l : Level) (path : List UInt8) : Option Verdict :=
  Ignore.verdict? (rules l) (l.relative path) isDirectory

end Level

/-- The directories whose rules bear on the entries of a directory, nearest first. -/
structure Chain where
  /-- Those from the walk's root down. -/
  inside : List Level := []
  /-- Those above the root, by their full paths. -/
  above : List Level := []
  root : Path
  /-- The root's full path. -/
  fullRoot : Path
  /-- The rules that the user keeps. -/
  user : Level

namespace Chain

/-- The full path of a path below the root. -/
def fullPath (c : Chain) (path : List UInt8) : List UInt8 :=
  let below := if c.root.same here then none else c.root.partsBelow? ⟨path⟩
  let rest : List UInt8 := match below with
    | none => path
    | some parts => [Path.slash].intercalate (parts.filterMap fun
        | .name n => some n
        | .up => some [Path.dot, Path.dot]
        | _ => none)
  (c.fullRoot.child rest).bytes

/-- All directories, each with the path as it goes by it. -/
def levels (c : Chain) (path : List UInt8) : List (Level × List UInt8) :=
  c.inside.map (·, path) ++ c.above.map (·, c.fullPath path)

/-- The directories up to the top of the nearest repository; none outside one. -/
def inRepository (levels : List (Level × List UInt8)) : List (Level × List UInt8) :=
  levels.takeWhile (!·.1.hasRepository) ++ (levels.dropWhile (!·.1.hasRepository)).take 1

/-- What the rules say about a path. -/
def verdict? (c : Chain) (path : Path) (isDirectory : Bool) : Option Verdict :=
  let path := withoutDotSlash path.bytes
  let all := c.levels path
  let (versioned, users) := if all.any (·.1.hasRepository) then (inRepository all, [(c.user, path)]) else ([], [])
  let say (rules : Level → List Rule) (levels : List (Level × List UInt8)) :=
    levels.findSome? fun (l, path) => l.verdict? rules isDirectory path
  (say (·.own) all).or ((say (·.shared) versioned).or ((say (·.excluded) versioned).or (say (·.shared) users)))

end Chain

end LineCensus.Ignore
