/-
How a decimal is laid out as text. The formats differ only in the choices of one
record: where positional notation ends, whether a whole number keeps `.0`, and
how an exponent and the values that are no numbers are spelled.
-/
import LineCensus.Decimal.Shortest
import LineCensus.Text.Pad

namespace LineCensus.Decimal

/-- The choices of one format. -/
structure Layout where
  /-- The places of the decimal point for which the notation is positional; all
  of them when absent. -/
  positional : Option (Int × Int)
  /-- Whether a whole number is followed by `.0`. -/
  wholeMark : Bool
  /-- What stands before a positive exponent. -/
  plus : String
  nan : String
  infinite : String
  /-- Where a value goes that lies half way between two decimals. -/
  tie : Tie

/-- Digits and the place of the point, written without an exponent. -/
def positionalText (wholeMark : Bool) (digits : String) (point : Int) : String :=
  if point ≤ 0 then "0." ++ Text.fill (-point).toNat '0' ++ digits
  else
    let n := point.toNat
    if digits.length ≤ n then
      digits ++ Text.fill (n - digits.length) '0' ++ (if wholeMark then ".0" else "")
    else
      let cs := digits.toList
      String.ofList (cs.take n) ++ "." ++ String.ofList (cs.drop n)

/-- Digits and the place of the point, written with an exponent. -/
def scientificText (plus : String) (digits : String) (point : Int) : String :=
  let cs := digits.toList
  let fraction := cs.drop 1
  let e := point - 1
  String.ofList (cs.take 1) ++ (if fraction.isEmpty then "" else "." ++ String.ofList fraction)
    ++ "e" ++ (if e < 0 then "-" else plus) ++ toString e.natAbs

/-- The text of a number that is not negative. -/
def Layout.unsigned (l : Layout) (d : Decimal) : String :=
  if d.digits = 0 then if l.wholeMark then "0.0" else "0"
  else
    let digits := toString d.digits
    let point := d.exponent + digits.length
    match l.positional with
    | none => positionalText l.wholeMark digits point
    | some (first, last) =>
      if first ≤ point && point ≤ last then positionalText l.wholeMark digits point
      else scientificText l.plus digits point

/-- The text of a binary value: its shortest decimal in this layout. -/
def Layout.text (l : Layout) : Binary64 → String
  | .nan => l.nan
  | .infinite negative => (if negative then "-" else "") ++ l.infinite
  | .finite negative m e => (if negative then "-" else "") ++ l.unsigned (shortest l.tie m e)

/-- Never an exponent, and no `.0`; what lies half way goes up. -/
def plain : Layout := ⟨none, false, "", "NaN", "inf", .up⟩

end LineCensus.Decimal
