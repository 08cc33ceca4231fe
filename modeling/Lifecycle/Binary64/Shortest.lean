import Lifecycle.Binary64
import Lifecycle.Decimal.Digits

/-! The shortest decimal that reads back as a given floating-point number. -/
namespace Lifecycle.Binary64

open Decimal (tenTo twoTo)

inductive Tie where
  | toEven
  | up

structure Scientific where
  digits : Nat
  exponent : Int

namespace Scientific

def compareScaled (a : Nat) (i : Int) (n : Nat) (j : Int) : Ordering :=
  compare (a * tenTo i.toNat * twoTo (-j).toNat) (n * twoTo j.toNat * tenTo (-i).toNat)

def strip (fuel : Nat) (d : Scientific) : Scientific :=
  match fuel with
  | 0 => d
  | fuel + 1 =>
    if d.digits ≠ 0 ∧ d.digits % 10 = 0 then strip fuel ⟨d.digits / 10, d.exponent + 1⟩ else d

end Scientific

open Scientific

/-- Whether a decimal lies between the halfway points to the two neighbours of `x`. The points
themselves count if the significand of `x` is even, and below a power of two the neighbour is only
half as far away. -/
def readsBack (x : Binary64) (d : Scientific) : Bool :=
  let narrow := x.fractionBits = 0 ∧ 1 < x.exponentBits
  let low := compareScaled d.digits d.exponent (4 * x.significand - if narrow then 1 else 2)
    (x.scale - 2)
  let high := compareScaled d.digits d.exponent (4 * x.significand + 2) (x.scale - 2)
  let ends := x.significand % 2 = 0
  (low = .gt || (ends && low = .eq)) && (high = .lt || (ends && high = .eq))

def magnitude (n : Nat) (j : Int) : Int :=
  let num := n * twoTo j.toNat
  let den := twoTo (-j).toNat
  if den ≤ num then (Decimal.digits (num / den)).length
  else
    let count := (Decimal.digits (den / num)).length
    if den ≤ num * tenTo (count - 1) then 2 - count else 1 - count

def onGrid (tie : Tie) (x : Binary64) (exponent : Int) : Option Scientific :=
  let num := x.significand * twoTo x.scale.toNat * tenTo (-exponent).toNat
  let den := twoTo (-x.scale).toNat * tenTo exponent.toNat
  let below : Scientific := ⟨num / den, exponent⟩
  let above : Scientific := ⟨num / den + 1, exponent⟩
  match x.readsBack below, x.readsBack above with
  | false, false => none
  | true, false => some below
  | false, true => some above
  | true, true =>
    match compare (2 * (num % den)) den with
    | .lt => some below
    | .gt => some above
    | .eq =>
      match tie with
      | .up => some above
      | .toEven => some (if below.digits % 2 = 0 then below else above)

def exactly (x : Binary64) : Scientific :=
  ⟨x.significand * twoTo x.scale.toNat * Nat.pow 5 (-x.scale).toNat, min x.scale 0⟩

/-- The fewest digits that read back as the finite number `x`, sign aside, and of those the nearest.
Grids are tried from the coarsest on; the seventeenth always has a hit. -/
def shortest (tie : Tie) (x : Binary64) : Scientific :=
  if x.significand = 0 then ⟨0, 0⟩
  else
    let top := magnitude x.significand x.scale
    let found := (List.range 17).findSome? fun (k : Nat) => x.onGrid tie (top - (k + 1 : Nat))
    (found.getD x.exactly).strip 20

end Lifecycle.Binary64
