/-
The shortest decimal that reads back as a given binary value.

The numbers that read back as `m · 2^e` form an interval around it that reaches
half way to each neighbour; its ends belong to it when `m` is even. For 1, 2, …
17 digits the two points of that decimal grid next to the value are tried; the
first grid with a point in the interval wins, and of two the nearer one. If any
point of a grid lies in the interval, so does one of the two next to the value,
so no shorter decimal reads back.
-/
import LineCensus.Binary64

namespace LineCensus

/-- The number `digits · 10 ^ exponent`. -/
structure Decimal where
  digits : Nat
  exponent : Int
deriving DecidableEq

namespace Decimal

/-- `10 ^ n` for any integer `n`. -/
def tenTo (n : Int) : Rat := (10 : Rat) ^ n

/-- The rational number `m · 2 ^ e`. -/
def binary (m : Nat) (e : Int) : Rat := (m : Rat) * (2 : Rat) ^ e

/-- The interval of the numbers that read back as one value. -/
structure Interval where
  low : Rat
  high : Rat
  closed : Bool

/-- Whether a number lies in the interval. -/
def Interval.contains (i : Interval) (q : Rat) : Bool :=
  if i.closed then i.low ≤ q && q ≤ i.high else i.low < q && q < i.high

/-- The numbers that read back as `m · 2 ^ e`. Below a power of two the
neighbour is only half as far away. -/
def Interval.around (m : Nat) (e : Int) : Interval :=
  { low := if m = 0x10000000000000 then binary (4 * m - 1) (e - 2) else binary (2 * m - 1) (e - 1)
    high := binary (2 * m + 1) (e - 1)
    closed := m % 2 = 0 }

/-- The number of digits of a number, 0 for 0. -/
def digitCount (n : Nat) : Nat := if n = 0 then 0 else (Nat.toDigits 10 n).length

/-- The place of the decimal point of a positive number `q`: the `p` with
`10 ^ (p - 1) ≤ q < 10 ^ p`. -/
def pointOf (q : Rat) : Int :=
  let num := q.num.natAbs
  if q.den ≤ num then digitCount (num / q.den)
  else 1 - (digitCount ((q.den - 1) / num) : Int)

/-- Which of two points of a grid a number goes to that lies half way between them:
the upper one or the one with an even last digit. -/
inductive Tie where
  | up
  | even
deriving DecidableEq

/-- The point for a number half way above `below`. -/
def Tie.point (t : Tie) (below : Nat) : Nat :=
  match t with
  | .up => below + 1
  | .even => if below % 2 = 0 then below else below + 1

/-- The point of the grid of multiples of `10 ^ unit` that is nearest to `q`
among its two neighbours inside the interval. -/
def nearest? (tie : Tie) (i : Interval) (q : Rat) (unit : Int) : Option Nat :=
  let below := (q / tenTo unit).floor.toNat
  let low := (below : Rat) * tenTo unit
  let high := ((below + 1 : Nat) : Rat) * tenTo unit
  match i.contains low, i.contains high with
  | true, true =>
    some (if q - low < high - q then below else if high - q < q - low then below + 1 else tie.point below)
  | true, false => some below
  | false, true => some (below + 1)
  | false, false => none

/-- Try grids of `n`, `n + 1`, … digits. -/
def search (tie : Tie) (i : Interval) (q : Rat) (point : Int) : Nat → Nat → Decimal
  | 0, n => ⟨(q / tenTo (point - n)).floor.toNat, point - n⟩
  | fuel + 1, n =>
    match nearest? tie i q (point - n) with
    | some d => ⟨d, point - n⟩
    | none => search tie i q point fuel (n + 1)

/-- The same number without zeros at the end of its digits. -/
def dropZeros : Nat → Decimal → Decimal
  | 0, d => d
  | fuel + 1, d =>
    if d.digits ≠ 0 ∧ d.digits % 10 = 0 then dropZeros fuel ⟨d.digits / 10, d.exponent + 1⟩ else d

/-- The shortest decimal that reads back as `m · 2 ^ e`, nearest to it among
those; `m` has 53 bits or is 0. -/
def shortest (tie : Tie) (m : Nat) (e : Int) : Decimal :=
  if m = 0 then ⟨0, 0⟩
  else
    let q := binary m e
    dropZeros 20 (search tie (.around m e) q (pointOf q) 17 1)

example : shortest .up 0x10000000000000 (-52) = ⟨1, 0⟩ := by decide +kernel

/-- Half way between two decimals of sixteen digits the rule for ties decides. -/
example : shortest .up 5084330112218720 (-9) = ⟨9930332250427188, -3⟩
    ∧ shortest .even 5084330112218720 (-9) = ⟨9930332250427188, -3⟩ := by decide +kernel

end Decimal

end LineCensus
