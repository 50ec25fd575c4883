/-
Walking through a directory and those below it. A walk finds files, and faults
where a link that is followed leads nowhere or in a circle, and where a directory
cannot be read because its path is too long.
-/
import LineCensus.Ignore.Level

namespace LineCensus

/-- Which way a walk goes. -/
structure WalkOptions where
  followLinks : Bool := false
  includeHidden : Bool := false
  /-- Whether a directory of this name is entered. -/
  enters : List UInt8 → Bool := fun _ => true

/-- What a walk finds. -/
inductive Found where
  | file (path : Path)
  | fault (text : String)
deriving DecidableEq

namespace Walk

/-- Whether the name at the end of a path hides what it names: it starts with a dot. -/
def isHidden (path : Path) : Bool := (path.bytes.splitOn Path.slash).getLast?.any (·.head? == some Path.dot)

/-- What is told where a path cannot be gone into. -/
def faultText (path : Path) (fault : PathFault) : String :=
  s!"{path.display}: IO error for operation on {path.display}: {fault.text}"

/-- The full path of a place. -/
def pathOf (place : Place) : Path := ⟨Path.slash :: [Path.slash].intercalate place⟩

/-- The places above a place, the nearest first. -/
def placesAbove (place : Place) : List Place := (List.range place.length).reverse.map place.take

/-- A directory on the way from the root, by its place and its path. -/
abbrev Way := List (Place × Path)

/-- What an entry of a directory is to the walk. A link that is followed is what it
leads to; it must not lead to a directory that the walk is in. -/
def resolve (t : FileTree) (o : WalkOptions) (way : Way) (path : Path) (place : Place) (item : Item) :
    Except String (Place × Item) :=
  match item with
  | .link _ =>
    if !o.followLinks then .ok (place, item)
    else
      match t.locate true path with
      | .error fault => .error (faultText path fault)
      | .ok (place, .directory) =>
        match way.find? (·.1 = place) with
        | some (_, ancestor) =>
          .error s!"File system loop found: {path.display} points to an ancestor {ancestor.display}"
        | none => .ok (place, .directory)
      | .ok found => .ok found
  | item => .ok (place, item)

/-- Whether the walk passes an entry over: rules decide, and where they are silent a
hidden name does. -/
def skips (o : WalkOptions) (rules : Ignore.Chain) (path : Path) (isDirectory : Bool) : Bool :=
  match rules.verdict? path isDirectory with
  | some verdict => verdict == .ignored
  | none => !o.includeHidden && isHidden path

/-- What is found in a directory and below it. -/
def visit (t : FileTree) (o : WalkOptions) (fuel : Nat) (rules : Ignore.Chain) (way : Way) (place : Place)
    (path : Path) : List Found :=
  match fuel with
  | 0 => []
  | fuel + 1 =>
    if path.isTooLong then [.fault (faultText path .nameTooLong)]
    else
      let rules := { rules with inside := .ofDirectory t path :: rules.inside }
      let way := (place, path) :: way
      (t.entries place).flatMap fun (name, item) =>
        let path := path.child name
        match resolve t o way path (place ++ [name]) item with
        | .error text => [.fault text]
        | .ok (place, item) =>
          if skips o rules path (item == .directory) then []
          else
            match item with
            | .directory => if o.enters name then visit t o fuel rules way place path else []
            | .file _ => [.file path]
            | .link _ => []

/-- A bound for the depth of walks: each link leads to a directory that the walk is
not in yet, and between two links it goes down in the tree. -/
def depthLimit (t : FileTree) : Nat :=
  (t.items.length + 1) * (t.items.foldl (fun n (place, _) => max n place.length) 0 + 1)

/-- What is found below a root that is a directory. A root named by a hyphen stands
for something else, and nothing is found there. -/
def run (t : FileTree) (o : WalkOptions) (root : Path) : List Found :=
  if root.same (Path.ofString "-") then []
  else
    match t.locate true root with
    | .error _ => []
    | .ok (place, _) =>
      let above := (placesAbove place).map fun p => Ignore.Level.ofDirectory t (pathOf p)
      let user := Ignore.Level.ofUser t (pathOf t.here)
      visit t o (depthLimit t) { above, root, fullRoot := pathOf place, user } [] place root

end Walk

end LineCensus
