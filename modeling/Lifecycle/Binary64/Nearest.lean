import Lifecycle.Binary64
import Lifecycle.Decimal.Digits

/-! The floating-point number nearest to a decimal. -/
namespace Lifecycle.Binary64

open Decimal (tenTo twoTo)

def roundedQuotient (num den : Nat) : Nat :=
  let q := num / den
  match compare (2 * (num % den)) den with
  | .lt => q
  | .gt => q + 1
  | .eq => if q % 2 = 0 then q else q + 1

/-- The number nearest to `num / den`, for positive `num` and `den`; none if it is too large.
The scale is chosen so that the rounded significand has 53 bits, or fewer at the smallest scale. -/
def ofRatio? (negative : Bool) (num den : Nat) : Option Binary64 :=
  let estimate : Int := (num.log2 : Int) - den.log2 - 52
  let scaled (j : Int) : Nat × Nat := (num * twoTo (-j).toNat, den * twoTo j.toNat)
  let fits (j : Int) : Bool := let (a, b) := scaled j; a < b * twoTo 53
  let scale := max (if fits (estimate - 1) then estimate - 1 else estimate) (-1074)
  let (a, b) := scaled scale
  let m := roundedQuotient a b
  let (m, scale) := if m = twoTo 53 then (twoTo 52, scale + 1) else (m, scale)
  if m < twoTo 52 then some (ofParts negative 0 m)
  else
    let e := (scale + 1075).toNat
    if e < 2047 then some (ofParts negative e (m - twoTo 52)) else none

/-- The number nearest to `digits * 10 ^ exponent`, where `digits` has `count` digits; none if it
is too large. Exponents far out of range are decided before any power is formed. -/
def ofDecimal? (negative : Bool) (digits count : Nat) (exponent : Int) : Option Binary64 :=
  if digits = 0 then some (ofParts negative 0 0)
  else if exponent + count < -330 then some (ofParts negative 0 0)
  else if 330 < exponent then none
  else ofRatio? negative (digits * tenTo exponent.toNat) (tenTo (-exponent).toNat)

end Lifecycle.Binary64
