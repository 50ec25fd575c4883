/-
Binary floating-point values with 53 significant bits, and the one operation
asked of them: the quotient of two integers, each rounded first. All of it is
exact integer arithmetic, so that statements about quotients need no axioms.

The exponent is unbounded. Numerators here lie below 2^63 and denominators
below 2^64 in magnitude, so a quotient lies between 2^-64 and 2^63 and neither
the subnormal range nor overflow can be met.
-/
namespace LineCensus

/-- A value `± mantissa · 2 ^ exponent`; a mantissa other than 0 has exactly 53 bits. -/
inductive Binary64 where
  | nan
  | infinite (negative : Bool)
  | finite (negative : Bool) (mantissa : Nat) (exponent : Int)
deriving DecidableEq

namespace Binary64

/-- The integer nearest to `num / den`; a half goes to the even neighbour. -/
def roundDiv (num den : Nat) : Nat :=
  let q := num / den
  let r := num % den
  if 2 * r < den then q
  else if den < 2 * r then q + 1
  else if q % 2 = 0 then q else q + 1

/-- `num / den` in units of `2 ^ e`. -/
def roundScaled (num den : Nat) (e : Int) : Nat :=
  if 0 ≤ e then roundDiv num (den <<< e.toNat) else roundDiv (num <<< (-e).toNat) den

/-- The value nearest to `± num / den`. The unit is chosen so that the mantissa
has 53 bits; rounding up to `2 ^ 53` moves to the next unit. -/
def ofRatio (negative : Bool) (num den : Nat) : Binary64 :=
  if num = 0 then .finite negative 0 0
  else
    let magnitude : Int := (num.log2 : Int) - (den.log2 : Int)
    let atLeast := if 0 ≤ magnitude then den <<< magnitude.toNat ≤ num
      else den ≤ num <<< (-magnitude).toNat
    let e := if atLeast then magnitude - 52 else magnitude - 53
    let m := roundScaled num den e
    if m = 0x20000000000000 then .finite negative 0x10000000000000 (e + 1) else .finite negative m e

/-- The value nearest to an integer. -/
def ofInt (n : Int) : Binary64 := ofRatio (n < 0) n.natAbs 1

/-- The quotient of two finite values: zero by zero is not a number, anything
else by zero is infinite. Other arguments do not occur and give `nan`. -/
def div : Binary64 → Binary64 → Binary64
  | .finite s₁ m₁ e₁, .finite s₂ m₂ e₂ =>
    if m₂ = 0 then if m₁ = 0 then .nan else .infinite (s₁ != s₂)
    else
      let e := min e₁ e₂
      ofRatio (s₁ != s₂) (m₁ <<< (e₁ - e).toNat) (m₂ <<< (e₂ - e).toNat)
  | _, _ => .nan

/-- The quotient of two integers that are rounded to 53 bits first. -/
def quotient (num : Int) (den : Nat) : Binary64 := div (ofInt num) (ofInt den)

def isFinite : Binary64 → Bool
  | .finite .. => true
  | _ => false

end Binary64

end LineCensus
