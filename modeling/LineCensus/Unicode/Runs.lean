/-
Tables of properties of characters. A table is a text that lists runs of
characters in order; decoded, it is searched by bisection.
-/
import LineCensus.Bisection

namespace LineCensus.Unicode

/-- A table being decoded: the runs found, the last one first, where the current
run starts, its letter, and its length as far as it has been read. -/
structure RunReading where
  runs : List (Nat × Char) := []
  start : Nat := 0
  letter : Option Char := none
  length : Nat := 0

/-- End the current run. A run without a length has length 1. -/
def RunReading.close (r : RunReading) : RunReading :=
  match r.letter with
  | none => r
  | some c =>
    { runs := (r.start, c) :: r.runs
      start := r.start + (if r.length = 0 then 1 else r.length)
      letter := none
      length := 0 }

/-- Read a letter or a digit. -/
def RunReading.step (r : RunReading) (c : Char) : RunReading :=
  if c.isDigit then { r with length := r.length * 10 + (c.toNat - 48) }
  else { r.close with letter := some c }

/-- The runs of a table: where each starts, and its letter. -/
def decodeRuns (table : String) : Array (Nat × Char) :=
  (table.toList.foldl RunReading.step {}).close.runs.reverse.toArray

/-- The letter of the run that a number lies in. -/
def runAt (runs : Array (Nat × Char)) (n : Nat) : Char :=
  match runs[partitionPoint runs (·.1 ≤ n) 0 runs.size - 1]? with
  | some (_, c) => c
  | none => ' '

/-- The borders of a table of distances. -/
def decodeBorders (table : String) : Array Nat :=
  let distances := (table.toList.splitOn ' ').map fun ds => ds.foldl (fun n c => n * 10 + (c.toNat - 48)) 0
  (distances.foldl (fun (borders : Array Nat) d => borders.push (borders.back?.getD 0 + d)) #[])

/-- Whether a number lies between a border where the property begins and the next. -/
def isBetween (borders : Array Nat) (n : Nat) : Bool :=
  partitionPoint borders (· ≤ n) 0 borders.size % 2 == 1

/-- Whether a character lies in one of these ranges, each with its first and last. -/
def inRanges (ranges : List (Nat × Nat)) (c : Char) : Bool :=
  ranges.any fun (first, last) => first ≤ c.toNat && c.toNat ≤ last

end LineCensus.Unicode
