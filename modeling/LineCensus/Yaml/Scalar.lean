/-
What a plain YAML scalar stands for: null, a truth value, a number or a text.
-/
import LineCensus.Decimal.Range

namespace LineCensus.Yaml

/-- The meaning of a plain scalar. -/
inductive ScalarKind where
  | null
  | bool (b : Bool)
  | integer
  | float
  | text
deriving DecidableEq

/-- Zeros in front of digits make a text, not a number. -/
def isPaddedNumber (cs : List Char) : Bool :=
  let digits := match cs with
    | '-' :: rest | '+' :: rest => rest
    | _ => cs
  match digits with
  | '0' :: d :: rest => (d :: rest).all Char.isDigit
  | _ => false

def isHexDigit (c : Char) : Bool := c.isDigit || ('a' ≤ c && c ≤ 'f') || ('A' ≤ c && c ≤ 'F')
def isOctalDigit (c : Char) : Bool := '0' ≤ c && c ≤ '7'
def isBinaryDigit (c : Char) : Bool := c == '0' || c == '1'

/-- The value of a digit in any base up to sixteen. -/
def digitValue (c : Char) : Nat :=
  if c.isDigit then c.toNat - 48 else if 'a' ≤ c then c.toNat - 87 else c.toNat - 55

/-- Whether the characters are digits of a base, at least one, and their number is
at most `limit`. -/
def areDigits (base limit : Nat) (isDigit : Char → Bool) (cs : List Char) : Bool :=
  !cs.isEmpty && cs.all isDigit && cs.foldl (fun n c => n * base + digitValue c) 0 ≤ limit

/-- A whole number of at most 128 bits: digits in base ten, or in another base
behind its mark, with a sign in front or without. -/
def isInteger (cs : List Char) : Bool :=
  let unsigned := match cs with
    | '-' :: rest | '+' :: rest => rest
    | _ => cs
  let limit := if cs.head? == some '-' then 1 <<< 127 else (1 <<< 128) - 1
  match unsigned with
  | '0' :: 'x' :: rest => areDigits 16 limit isHexDigit rest
  | '0' :: 'o' :: rest => areDigits 8 limit isOctalDigit rest
  | '0' :: 'b' :: rest => areDigits 2 limit isBinaryDigit rest
  | _ => areDigits 10 limit Char.isDigit unsigned && !isPaddedNumber cs

/-- Digits, at least one. -/
def isDigits (cs : List Char) : Bool := !cs.isEmpty && cs.all Char.isDigit

/-- An exponent, or nothing. -/
def isExponent : List Char → Bool
  | [] => true
  | c :: rest =>
    (c == 'e' || c == 'E') &&
      match rest with
      | '+' :: ds | '-' :: ds => isDigits ds
      | ds => isDigits ds

/-- A decimal number without a sign: digits, a point that may stand before or
after all of them, and an exponent. -/
def isDecimal (cs : List Char) : Bool :=
  let whole := cs.takeWhile Char.isDigit
  match cs.dropWhile Char.isDigit with
  | '.' :: rest =>
    let fraction := rest.takeWhile Char.isDigit
    !(whole.isEmpty && fraction.isEmpty) && isExponent (rest.dropWhile Char.isDigit)
  | rest => !whole.isEmpty && isExponent rest

/-- A number with a point or an exponent that is finite, or one of the words for
the values that are not. -/
def isFloat (cs : List Char) : Bool :=
  let unsigned := match cs with
    | '-' :: rest | '+' :: rest => rest
    | _ => cs
  let word := String.ofList unsigned
  if word == ".inf" || word == ".Inf" || word == ".INF" then true
  else if word == ".nan" || word == ".NaN" || word == ".NAN" then cs == unsigned
  else isDecimal unsigned && Decimal.isInRange word

/-- What a plain scalar stands for. -/
def ScalarKind.ofText (s : String) : ScalarKind :=
  match s with
  | "" | "~" | "null" | "Null" | "NULL" => .null
  | "true" | "True" | "TRUE" => .bool true
  | "false" | "False" | "FALSE" => .bool false
  | _ =>
    let cs := s.toList
    if isInteger cs then .integer
    else if isPaddedNumber cs then .text
    else if isFloat cs then .float
    else .text

end LineCensus.Yaml
