/-
Expressions while their pattern is read: how deep they are nested, and how much
room they will take.
-/
import LineCensus.Pattern.Look
import LineCensus.Regular.Expression

namespace LineCensus.Pattern

/-- A regular expression over characters. -/
abbrev Expression := Regular.Expression Char

/-- An expression being read. -/
structure Draft where
  expression : Expression
  /-- An estimate of the states it compiles to. -/
  weight : Nat := 1
  depth : Nat := 0
  /-- Whether the part only sets flags, so that it cannot be repeated. -/
  setsFlags : Bool := false

namespace Draft

def ofSet (s : CharSet) : Draft := { expression := .one s.has, weight := s.weight }

def ofLook (condition : Look) : Draft := { expression := .look condition.holds }

/-- Join drafts, of which the last stands first. Each of the others adds `cost`. -/
def join (op : Expression → Expression → Expression) (cost : Nat) : List Draft → Draft
  | [] => { expression := .empty }
  | [draft] => draft
  | last :: drafts =>
    { expression := drafts.foldl (fun e d => op d.expression e) last.expression
      weight := drafts.foldl (fun n d => n + d.weight + cost) last.weight
      depth := drafts.foldl (fun n d => max n d.depth) last.depth + 1 }

/-- Parts one after another. -/
def ofParts : List Draft → Draft := join .both 0

/-- Alternatives. -/
def ofBranches : List Draft → Draft := join .either 2

/-- A part repeated. -/
def repeated (d : Draft) (least : Nat) (most : Option Nat) : Draft :=
  { expression := .repeated d.expression least most
    weight := match most with
      | none => max least 1 * d.weight + 2
      | some most => least * d.weight + (most - least) * (d.weight + 1) + 1
    depth := d.depth + 1 }

end Draft

end LineCensus.Pattern
