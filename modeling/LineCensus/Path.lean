/-
File paths: bytes, cut at slashes. Paths are compared part by part, so that
repeated slashes and dots in the middle do not tell two paths apart.
-/
import LineCensus.Text.Utf8

namespace LineCensus

/-- A path. -/
structure Path where
  bytes : List UInt8
deriving DecidableEq, Inhabited

namespace Path

/-- A part of a path. -/
inductive Part where
  | root
  | here
  | up
  | name (bytes : List UInt8)
deriving DecidableEq, Inhabited

/-- The order of parts: the root first, then `.`, `..`, and names by their bytes. -/
def Part.rank : Part → Nat
  | .root => 0
  | .here => 1
  | .up => 2
  | .name _ => 3

/-- The order of byte sequences. -/
def compareBytes : List UInt8 → List UInt8 → Ordering
  | [], [] => .eq
  | [], _ :: _ => .lt
  | _ :: _, [] => .gt
  | a :: as, b :: bs => if a < b then .lt else if b < a then .gt else compareBytes as bs

def Part.compare : Part → Part → Ordering
  | .name a, .name b => compareBytes a b
  | p, q => Ord.compare p.rank q.rank

def ofString (s : String) : Path := ⟨Text.encode s.toList⟩

/-- The path as text, with U+FFFD where its bytes are not UTF-8. -/
def display (p : Path) : String := String.ofList (Text.decodeLossy p.bytes)

def slash : UInt8 := 47
def dot : UInt8 := 46

def isAbsolute (p : Path) : Bool := p.bytes.head? == some slash

/-- What a piece between slashes stands for; a dot counts only at the beginning
of a path that does not start at the root. -/
def partOf (leading : Bool) (piece : List UInt8) : Option Part :=
  if piece.isEmpty then none
  else if piece = [dot] then if leading then some .here else none
  else if piece = [dot, dot] then some .up
  else some (.name piece)

/-- The parts of a path. -/
def parts (p : Path) : List Part :=
  let pieces := p.bytes.splitOn slash
  let first := (pieces.head?.bind (partOf (!p.isAbsolute))).toList
  (if p.isAbsolute then [.root] else []) ++ first ++ pieces.tail.filterMap (partOf false)

/-- The order of paths: that of the first parts that differ, the shorter of two
else equal ones first. -/
def compareParts : List Part → List Part → Ordering
  | [], [] => .eq
  | [], _ :: _ => .lt
  | _ :: _, [] => .gt
  | a :: as, b :: bs => (a.compare b).then (compareParts as bs)

def compare (p q : Path) : Ordering := compareParts p.parts q.parts

/-- Whether two paths have the same parts. -/
def same (p q : Path) : Bool := p.parts == q.parts

/-- Whether a path is longer than a system call takes. -/
def isTooLong (p : Path) : Bool := 4096 ≤ p.bytes.length

/-- The last part if it is a name. -/
def fileName? (p : Path) : Option (List UInt8) :=
  match p.parts.getLast? with
  | some (.name n) => some n
  | _ => none

/-- What follows the last dot of a file name, unless that is its only dot and
stands in front. -/
def extensionOf (name : List UInt8) : Option (List UInt8) :=
  let reversed := name.reverse
  match reversed.dropWhile (· != dot) with
  | _ :: (_ :: _) => some (reversed.takeWhile (· != dot)).reverse
  | _ => none

def extension? (p : Path) : Option (List UInt8) := p.fileName?.bind extensionOf

/-- A name as text, if it is UTF-8. -/
def text? (bytes : List UInt8) : Option String := (Text.decode? bytes).map String.ofList

/-- The file name as text. -/
def fileNameText? (p : Path) : Option String := p.fileName?.bind text?

/-- The extension as text. -/
def extensionText? (p : Path) : Option String := p.extension?.bind text?

/-- The parts after those of `base`, if the path starts with them. -/
def partsBelow? (base p : Path) : Option (List Part) :=
  if base.parts.isPrefixOf p.parts then some (p.parts.drop base.parts.length) else none

/-- The path of an entry of this directory. -/
def child (p : Path) (name : List UInt8) : Path :=
  if p.bytes.isEmpty then ⟨name⟩
  else if p.bytes.getLast? == some slash then ⟨p.bytes ++ name⟩
  else ⟨p.bytes ++ slash :: name⟩

end Path

end LineCensus
