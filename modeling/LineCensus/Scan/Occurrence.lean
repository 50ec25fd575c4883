/-
Tokens in a sequence: whether one occurs, how often, and whether an opening
token is left unclosed. The functions work on any symbols, characters or bytes
alike; each passes once over the sequence from the left.

A token that has been recognised is passed over as a whole. The recursion does
this by counting down the symbols of it that are still to be skipped.
-/
namespace LineCensus.Scan

variable {α : Type} [BEq α]

/-- Whether the token occurs anywhere in the sequence. -/
def occursIn (token : List α) : List α → Bool
  | [] => token.isEmpty
  | x :: xs => token.isPrefixOf (x :: xs) || occursIn token xs

/-- Occurrences counted from the left, none overlapping the one before; `skip`
symbols of the last occurrence are still to be passed. -/
def countFrom (token : List α) : (skip count : Nat) → List α → Nat
  | _, n, [] => n
  | skip + 1, n, _ :: xs => countFrom token skip n xs
  | 0, n, x :: xs =>
    if token.isPrefixOf (x :: xs) then countFrom token (token.length - 1) (n + 1) xs
    else countFrom token 0 n xs

/-- How often the token occurs, overlaps aside. -/
def occurrences (token xs : List α) : Nat := countFrom token 0 0 xs

/-- The number of openers that no closer has answered: an opener adds one, a
closer takes one away if there is one. At each place an opener is looked for
first. An empty closer is never found. -/
def depthFrom (opener closer : List α) : (skip depth : Nat) → List α → Nat
  | _, depth, [] => depth
  | skip + 1, depth, _ :: xs => depthFrom opener closer skip depth xs
  | 0, depth, x :: xs =>
    if opener.isPrefixOf (x :: xs) then
      depthFrom opener closer (opener.length - 1) (depth + 1) xs
    else if !closer.isEmpty && closer.isPrefixOf (x :: xs) then
      depthFrom opener closer (closer.length - 1) (depth - 1) xs
    else depthFrom opener closer 0 depth xs

/-- Whether a line leaves a block open. Where one token opens and closes, any
occurrence of it does. -/
def leavesOpen (opener closer xs : List α) : Bool :=
  if opener == closer then occursIn opener xs else depthFrom opener closer 0 0 xs != 0

end LineCensus.Scan
