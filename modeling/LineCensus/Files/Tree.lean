/-
The files a run can see, as a value: what lies at which place, and the place from
which relative paths start.

A place is the list of names from the root down to it. A path leads to a place by
going through directories and following links; there are as many ways to fail as
a system call has.
-/
import LineCensus.Path

namespace LineCensus

/-- The names from the root down. -/
abbrev Place := List (List UInt8)

/-- What lies at a place. -/
inductive Item where
  | file (bytes : List UInt8)
  | directory
  | link (target : Path)
deriving DecidableEq, Inhabited

/-- The items of a file system; the root is a directory even if it is not listed. -/
structure FileTree where
  items : List (Place × Item) := []
  /-- Where relative paths start. -/
  here : Place := []
  /-- The ignore file that the user keeps for all repositories. -/
  userIgnore : Option Path := none
deriving Inhabited

/-- Why a path leads nowhere. -/
inductive PathFault where
  | missing
  | notDirectory
  | isDirectory
  | tooManyLinks
  | nameTooLong
  | nulByte
deriving DecidableEq

/-- The fault in words. -/
def PathFault.text : PathFault → String
  | .missing => "No such file or directory (os error 2)"
  | .notDirectory => "Not a directory (os error 20)"
  | .isDirectory => "Is a directory (os error 21)"
  | .tooManyLinks => "Too many levels of symbolic links (os error 40)"
  | .nameTooLong => "File name too long (os error 36)"
  | .nulByte => "file name contained an unexpected NUL byte"

namespace FileTree

/-- What lies at a place. -/
def item? (t : FileTree) (place : Place) : Option Item :=
  if place.isEmpty then some .directory else t.items.lookup place

/-- The pieces of a path between slashes; a slash at the end asks for a directory,
as a dot there does. -/
def pieces (p : Path) : List (List UInt8) :=
  let named := (p.bytes.splitOn Path.slash).filter (!·.isEmpty)
  if p.bytes.getLast? == some Path.slash then named ++ [[Path.dot]] else named

/-- Follow the pieces of a path from a directory. At most `links` links are
followed, the last piece only if `followLast`. -/
def follow (t : FileTree) (followLast : Bool) (links : Nat) (place : Place) (ps : List (List UInt8)) :
    Except PathFault (Place × Item) :=
  match ps with
  | [] => .ok (place, .directory)
  | p :: rest =>
    if p = [Path.dot] then follow t followLast links place rest
    else if p = [Path.dot, Path.dot] then follow t followLast links place.dropLast rest
    else if 255 < p.length then .error .nameTooLong
    else
      let next := place ++ [p]
      match t.item? next with
      | none => .error .missing
      | some .directory => follow t followLast links next rest
      | some (.file bytes) => if rest.isEmpty then .ok (next, .file bytes) else .error .notDirectory
      | some (.link target) =>
        if rest.isEmpty && !followLast then .ok (next, .link target)
        else
          match links with
          | 0 => .error .tooManyLinks
          | links + 1 =>
            if target.bytes.isEmpty then .error .missing
            else follow t followLast links (if target.isAbsolute then [] else place) (pieces target ++ rest)
termination_by (links, ps.length)

/-- The most links that are followed on one path. -/
def linkLimit : Nat := 40

/-- Where a path leads, and what lies there. -/
def locate (t : FileTree) (followLast : Bool) (p : Path) : Except PathFault (Place × Item) :=
  if p.bytes.contains 0 then .error .nulByte
  else if p.bytes.isEmpty then .error .missing
  else if p.isTooLong then .error .nameTooLong
  else t.follow followLast linkLimit (if p.isAbsolute then [] else t.here) (pieces p)

/-- What lies at the end of a path, links followed. -/
def stat (t : FileTree) (p : Path) : Except PathFault Item := (t.locate true p).map (·.2)

/-- Whether a path leads to anything. -/
def hasPath (t : FileTree) (p : Path) : Bool := (t.stat p).toOption.isSome

def isDirectory (t : FileTree) (p : Path) : Bool := (t.stat p).toOption == some .directory

/-- The bytes of the file at the end of a path. -/
def read (t : FileTree) (p : Path) : Except PathFault (List UInt8) := do
  match ← t.stat p with
  | .file bytes => return bytes
  | _ => throw .isDirectory

/-- The entries of a directory, in the order of the tree. -/
def entries (t : FileTree) (place : Place) : List (List UInt8 × Item) :=
  t.items.filterMap fun (q, item) => if q.dropLast = place then q.getLast?.map (·, item) else none

end FileTree

end LineCensus
