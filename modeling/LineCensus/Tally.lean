/-
The running result of a scan: one counter for each kind of line, and a sum of
indentation measures from which a file's complexity is derived.
-/
import LineCensus.Binary64
import LineCensus.Count
import LineCensus.LineKind

namespace LineCensus

/-- The greatest and the least indentation sum; sums stay within them. -/
def indentLimit : Int := halfWord - 1

/-- An integer brought into the range of indentation sums. -/
def clampIndent (n : Int) : Int := max (-indentLimit - 1) (min n indentLimit)

/-- Lines counted so far. -/
structure Tally where
  code : Count := 0
  comments : Count := 0
  blanks : Count := 0
  indent : Int := 0
deriving DecidableEq, Inhabited

namespace Tally

/-- One more line of a kind. -/
def record (t : Tally) : LineKind → Tally
  | .blank => { t with blanks := t.blanks.increment }
  | .comment => { t with comments := t.comments.increment }
  | .code => { t with code := t.code.increment }

/-- One more indentation measure. -/
def addIndent (t : Tally) (amount : Int) : Tally := { t with indent := clampIndent (t.indent + amount) }

/-- The counter of a kind. -/
def count (t : Tally) : LineKind → Count
  | .blank => t.blanks
  | .comment => t.comments
  | .code => t.code

theorem count_record (t : Tally) (k k' : LineKind) :
    (t.record k).count k' = if k = k' then (t.count k').increment else t.count k' := by
  cases k <;> cases k' <;> rfl

@[simp] theorem count_addIndent (t : Tally) (amount : Int) (k : LineKind) :
    (t.addIndent amount).count k = t.count k := by
  cases k <;> rfl

/-- All lines. The three counters are added as machine words, so the sum is
taken modulo the number of words. -/
def total (t : Tally) : Nat := (t.code.value + t.comments.value + t.blanks.value) % wordSize

/-- The indentation sum by the number of code lines; not a number for a text
without code or indentation. -/
def complexity (t : Tally) : Binary64 := .quotient t.indent t.code.value

end Tally

end LineCensus
