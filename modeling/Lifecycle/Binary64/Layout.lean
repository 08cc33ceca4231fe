import Lifecycle.Binary64.Shortest

/-! Floating-point numbers as text. -/
namespace Lifecycle.Binary64

structure Layout where
  /-- Exponents of the leading digit from which on no exponent is written; all if absent. -/
  plainFrom : Option Int
  /-- Exponents below which no exponent is written; all if absent. -/
  plainBelow : Option Int
  /-- A whole number is written with a point and a zero. -/
  pointZero : Bool
  /-- A positive exponent has a plus. -/
  exponentPlus : Bool
  tie : Tie

namespace Layout

def zeros (n : Nat) : List Char :=
  List.replicate n '0'

def plain (l : Layout) (digits : List Char) (exponent : Int) : List Char :=
  let whole := digits.length + exponent
  if 0 ≤ exponent then
    digits ++ zeros exponent.toNat ++ if l.pointZero then ['.', '0'] else []
  else if 0 < whole then
    digits.take whole.toNat ++ '.' :: digits.drop whole.toNat
  else
    '0' :: '.' :: zeros (-whole).toNat ++ digits

def withExponent (l : Layout) (digits : List Char) (leading : Int) : List Char :=
  let tail := digits.drop 1
  digits.take 1 ++ (if tail.isEmpty then [] else '.' :: tail) ++ 'e' ::
    (if l.exponentPlus ∧ 0 ≤ leading then ['+'] else []) ++ Decimal.signed leading

def finite (l : Layout) (x : Binary64) : List Char :=
  let d := x.shortest l.tie
  let digits := Decimal.digits d.digits
  let leading := d.exponent + digits.length - 1
  (if x.isNegative then ['-'] else []) ++
    if x.isZero ∨ (l.plainFrom.all (· ≤ leading) ∧ l.plainBelow.all (leading < ·)) then
      l.plain digits d.exponent
    else l.withExponent digits leading

def render (l : Layout) (x : Binary64) : String :=
  if x.isNaN then "NaN"
  else if !x.isFinite then if x.isNegative then "-inf" else "inf"
  else String.ofList (l.finite x)

end Layout

end Lifecycle.Binary64
