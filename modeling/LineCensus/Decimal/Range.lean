/-
Which decimal numbers round to a finite binary value of 64 bits.
-/
namespace LineCensus.Decimal

/-- The digits of a number's spelling, and the power of ten they are multiplied with. -/
def decimalOf (spelling : String) : Nat × Int :=
  let cs := spelling.toList.dropWhile (· == '-')
  let isMark (c : Char) := c == 'e' || c == 'E'
  let mantissa := cs.takeWhile (!isMark ·)
  let fraction := (mantissa.dropWhile (· != '.')).drop 1
  let digits := mantissa.filter (· != '.')
  let exponent := (cs.dropWhile (!isMark ·)).drop 1
  let number (ds : List Char) : Nat := ds.foldl (fun n c => n * 10 + (c.toNat - 48)) 0
  let power : Int := match exponent with
    | '-' :: ds => -(number ds : Int)
    | '+' :: ds => number ds
    | ds => number ds
  (number digits, power - fraction.length)

/-- Whether a number rounds to a finite binary value of 64 bits. -/
def isInRange (spelling : String) : Bool :=
  let (digits, power) := decimalOf spelling
  if digits = 0 then true
  else
    let size := ((toString digits).length : Int) + power
    if size < 300 then true
    else if 320 < size then false
    else
      let bound := (1 <<< 1024) - (1 <<< 970)
      if 0 ≤ power then digits * Nat.pow 10 power.toNat < bound else digits < bound * Nat.pow 10 (-power).toNat

end LineCensus.Decimal
