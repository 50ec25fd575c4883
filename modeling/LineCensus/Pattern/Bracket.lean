/-
Sets of characters in brackets: members, ranges, sets inside sets, and the
operations on them.
-/
import LineCensus.Pattern.Escape

namespace LineCensus.Pattern

/-- A set being read, and how deep it is nested. -/
structure SetDraft where
  set : CharSet
  depth : Nat := 0

/-- An operation on two sets. -/
inductive SetOperation where
  | inter
  | diff
  | symmDiff

def SetOperation.apply : SetOperation → CharSet → CharSet → CharSet
  | .inter => .inter
  | .diff => .diff
  | .symmDiff => .symmDiff

namespace SetDraft

/-- The union of members, of which the last stands first. -/
def ofMembers : List SetDraft → SetDraft
  | [] => { set := .empty }
  | [member] => member
  | members =>
    { set := members.foldl (fun s m => s.union m.set) .empty
      depth := members.foldl (fun n m => max n m.depth) 0 + 1 }

end SetDraft

namespace Read

/-- A character of a set; patterns that are not about characters have ASCII ones only. -/
def member (c : Char) : Read Char := do
  if !(← flags).unicode && 0x80 ≤ c.val then failure
  return c

/-- What stands on one side of a range. -/
def setAtom : Read Atom := do
  if (← current) == '\\' then escape
  else
    let c ← current
    bump
    return .literal c

/-- A member or a range. A minus sign before the closing bracket or before another
one makes no range. -/
def setItem : Read CharSet := do
  let first ← setAtom
  skipSpace
  let c ← current
  let second ← peekSecondSpaced?
  if c != '-' || second == some ']' || second == some '-' then
    match first with
    | .literal c => return .single (← member c)
    | .set s => return s
    | .look _ => failure
  else
    bumpSpace
    let _ ← current
    match first, ← setAtom with
    | .literal low, .literal high =>
      if high.val < low.val then failure
      return .range (← member low) (← member high)
    | _, _ => failure

/-- A set named between colons, such as `[:alpha:]`, if one comes next. -/
def posixSet? : Read (Option CharSet) := do
  let start ← get
  let inner := (← rest).drop 1
  match inner with
  | ':' :: inner =>
    let negated := inner.head? == some '^'
    let inner := if negated then inner.tail else inner
    let name := inner.takeWhile (· != ':')
    match inner.drop name.length, CharSet.posix? (String.ofList name) with
    | ':' :: ']' :: after, some s =>
      set { start with rest := after }
      return some (← signed negated (← withCase s))
    | _, _ => return none
  | _ => return none

/-- Minus signs at the beginning of a set, or else a closing bracket, are members. -/
def leadingMembers : Read (List SetDraft) := do
  let dashes ← takeWhile (· == '-')
  if dashes.isEmpty && (← current) == ']' then
    bumpSpace
    return [{ set := .single ']' }]
  return dashes.map fun c => { set := .single c }

/-- The operation that comes next, if any. -/
def operation? : Read (Option SetOperation) := do
  if ← accept ['&', '&'] then return some .inter
  if ← accept ['-', '-'] then return some .diff
  if ← accept ['~', '~'] then return some .symmDiff
  return none

/-- Combine what stands on the left of an operation with what was read after it. -/
def combine (left : Option (SetDraft × SetOperation)) (right : SetDraft) : Read SetDraft := do
  match left with
  | none => return right
  | some (left, op) =>
    return { set := op.apply (← withCase left.set) (← withCase right.set)
             depth := max left.depth right.depth + 1 }

mutual

/-- A set in brackets. -/
def bracket : Nat → Read SetDraft
  | 0 => failure
  | fuel + 1 => do
    expect '['
    skipSpace
    let negated ← accept ['^']
    if negated then skipSpace
    let s ← members fuel none (← leadingMembers)
    return { set := ← signed negated (← withCase s.set), depth := s.depth + 1 }

/-- The members of a set up to its closing bracket. -/
def members : Nat → Option (SetDraft × SetOperation) → List SetDraft → Read SetDraft
  | 0, _, _ => failure
  | fuel + 1, left, found => do
    skipSpace
    match ← current with
    | '[' =>
      match ← posixSet? with
      | some s => members fuel left ({ set := s } :: found)
      | none => members fuel left ((← bracket fuel) :: found)
    | ']' =>
      bump
      combine left (.ofMembers found)
    | _ =>
      match ← operation? with
      | some op => members fuel (some (← combine left (.ofMembers found), op)) []
      | none => members fuel left ({ set := ← setItem } :: found)

end

end Read

end LineCensus.Pattern
