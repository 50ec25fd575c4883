/-
Whether a scan stands inside a block comment, and in which.
-/
namespace LineCensus

/-- Outside every block comment, or inside the one of the grammar's pair
`delimiter`. The parity is set once a symmetric token has been seen an odd number
of times since the block was entered. -/
inductive ScanState where
  | outside
  | inBlock (delimiter : Nat) (parity : Bool)
deriving DecidableEq, Inhabited

namespace ScanState

def isInBlock : ScanState → Bool
  | .outside => false
  | .inBlock .. => true

/-- The pair of the open block. -/
def active? : ScanState → Option Nat
  | .outside => none
  | .inBlock d _ => some d

def parity : ScanState → Bool
  | .outside => false
  | .inBlock _ p => p

/-- Open a block, unless one is open already. -/
def enter : ScanState → Nat → ScanState
  | .outside, d => .inBlock d false
  | s, _ => s

/-- The state after a line with so many occurrences of a token that both opens
and closes: two close the block, one closes it at odd parity and otherwise makes
the parity odd, and any other number leaves the state alone. -/
def afterSymmetric : ScanState → Nat → ScanState
  | .inBlock _ _, 2 => .outside
  | .inBlock _ true, 1 => .outside
  | .inBlock d false, 1 => .inBlock d true
  | s, _ => s

end ScanState

end LineCensus
