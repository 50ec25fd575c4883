/-
The command line: it takes a snapshot of the files a run may ask for, runs, and
writes what comes of it.
-/
import LineCensus.Command.Session
import LineCensus.Ignore.Settings

namespace LineCensus.Snapshot

/-- The place of a full path without dots. -/
def placeOf (path : String) : Place :=
  ((Text.encode path.toList).splitOn Path.slash).filter (!·.isEmpty)

/-- The full path of an entry. -/
def below (path name : String) : String := if path == "/" then path ++ name else s!"{path}/{name}"

/-- A tree with one more item, unless there is one at the place. -/
def put (t : FileTree) (place : Place) (item : Item) : FileTree :=
  if (t.item? place).isSome then t else { t with items := (place, item) :: t.items }

/-- Add what lies at a full path and, if that is a directory, all that is below it.
What links lead to is added as well, directories only if links are followed. A link
that leads nowhere has an empty target, one that leads in a circle itself. -/
partial def add (followLinks : Bool) (t : FileTree) (path : String) : IO FileTree := do
  let place := placeOf path
  if (t.item? place).isSome && !place.isEmpty then return t
  let file := System.mkFilePath [path]
  match ← file.symlinkMetadata.toBaseIO with
  | .error _ => return t
  | .ok status =>
    match status.type with
    | .dir =>
      let mut t := put t place .directory
      for e in ← file.readDir do
        t ← add followLinks t (below path e.fileName)
      return t
    | .symlink =>
      match ← file.metadata.toBaseIO with
      | .error (.noFileOrDirectory ..) => return put t place (.link ⟨[]⟩)
      | .error _ => return put t place (.link (.ofString path))
      | .ok _ =>
        let target ← IO.FS.realPath file
        let t := put t place (.link (.ofString target.toString))
        if followLinks || !(← target.isDir) then add followLinks t target.toString else return t
    | _ => return put t place (.file (← IO.FS.readBinFile file).toList)

/-- Add a full path without dots, with the directories above it and their ignore files. -/
def addWithAbove (followLinks : Bool) (t : FileTree) (path : String) : IO FileTree := do
  let names := (path.splitOn "/").filter (!·.isEmpty)
  let mut t := t
  for n in List.range names.length do
    let directory := "/" ++ "/".intercalate (names.take n)
    t := put t (placeOf directory) .directory
    for name in [".ignore", ".gitignore", ".git", ".jj"] do
      t ← add followLinks t (below directory name)
  add followLinks t path

/-- Add what a path leads to from a directory, name by name. -/
def addAlong (followLinks : Bool) (t : FileTree) (directory : String) : List String → IO FileTree
  | [] => addWithAbove followLinks t directory
  | name :: names => do
    if name.isEmpty || name == "." then addAlong followLinks t directory names
    else if name == ".." then
      let above := (directory.splitOn "/").dropLast
      addAlong followLinks t (if above.length ≤ 1 then "/" else "/".intercalate above) names
    else
      let path := below directory name
      match ← (IO.FS.realPath path).toBaseIO with
      | .error _ => addWithAbove followLinks t path
      | .ok target =>
        let t ← if target.toString == path then pure t else addWithAbove false t path
        addAlong followLinks t target.toString names

/-- Where the user keeps an ignore file for all repositories: where the settings say,
else beside them. -/
def userIgnore : IO (Option String) := do
  let home ← IO.getEnv "HOME"
  let configuration := ((← IO.getEnv "XDG_CONFIG_HOME").filter (!·.isEmpty)).or (home.map (below · ".config"))
  for settings in (home.map (below · ".gitconfig")).toList ++ (configuration.map (below · "git/config")).toList do
    if let .ok bytes ← (IO.FS.readBinFile (System.mkFilePath [settings])).toBaseIO then
      if let some path := Ignore.Settings.path? bytes.toList then
        return some (path.replace "~" (home.getD "~"))
  return configuration.map (below · "git/ignore")

/-- The files that paths lead to, seen from the working directory. -/
def take (followLinks : Bool) (paths : List String) : IO FileTree := do
  let here := (← IO.FS.realPath (← IO.currentDir)).toString
  let user ← userIgnore
  let mut t : FileTree := { here := placeOf here, userIgnore := user.map Path.ofString }
  for path in user.toList ++ paths do
    t ← addAlong followLinks t (if path.startsWith "/" then "/" else here) (path.splitOn "/")
  return t

end LineCensus.Snapshot

open LineCensus in
/-- Run the program. -/
def main (arguments : List String) : IO UInt32 := do
  let tree ← match Command.Arguments.parse arguments with
    | .ok a =>
      let paths := (if a.paths.isEmpty then [Path.ofString "."] else a.paths) ++ a.definitions.toList
      Snapshot.take (a.has .follow) (paths.map Path.display)
    | .error _ => pure {}
  let result := Command.session tree (← IO.getEnv "RUST_LOG") arguments
  IO.print result.output
  IO.eprint result.errors
  return result.exitCode
