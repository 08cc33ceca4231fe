import Lifecycle.Binary64.Nearest
import Lifecycle.Decimal.Digits
import Lifecycle.Json

/-! What a piece of JSON stands for where a certain kind of thing is expected. -/
namespace Lifecycle.Json

def bool? : Json → Option Bool
  | bool b => some b
  | _ => none

def text? : Json → Option String
  | string s => s
  | _ => none

def array? : Json → Option (List Json)
  | array items => some items
  | _ => none

def listOf? {α : Type} (read : Json → Option α) (v : Json) : Option (List α) :=
  v.array?.bind fun items => items.mapM read

/-- The integer that digits with an optional minus spell. A negative zero is no integer. -/
def integerLiteral? (literal : List Char) : Option Int :=
  match literal with
  | '-' :: ds =>
    if ds.all Decimal.isDigit ∧ Decimal.value ds ≠ 0 then some (-Decimal.value ds) else none
  | ds => if ds.all Decimal.isDigit then some (Decimal.value ds) else none

def integer? : Json → Option Int
  | number literal => integerLiteral? literal
  | _ => none

def byte? (v : Json) : Option UInt8 :=
  v.integer?.bind fun n => if 0 ≤ n ∧ n < 256 then some (UInt8.ofNat n.toNat) else none

def exponentOf : List Char → Int
  | _ :: '-' :: ds => -(Decimal.value ds : Int)
  | _ :: '+' :: ds => Decimal.value ds
  | _ :: ds => Decimal.value ds
  | [] => 0

def fractionOf : List Char → List Char × List Char
  | '.' :: rest => rest.span Decimal.isDigit
  | rest => ([], rest)

def floatLiteral? (literal : List Char) : Option Binary64 :=
  let (sign, rest) := literal.span (· = '-')
  let (whole, rest) := rest.span Decimal.isDigit
  let (fraction, rest) := fractionOf rest
  let digits := whole ++ fraction
  Binary64.ofDecimal? (!sign.isEmpty) (Decimal.value digits) digits.length
    (exponentOf rest - fraction.length)

def named? (entry : Option String × Json) : Option (String × Json) :=
  entry.1.map fun key => (key, entry.2)

def lookup (entries : List (String × Json)) (key : String) : List Json :=
  (entries.filter fun (k, _) => k = key).map (·.2)

/-- A record with the given keys, written as an object or as the array of its values in order. The
answer has a place for every key; what is missing is `none`. Other keys are ignored, but a key must
be a text, none of the given ones may occur twice, and an array may not be too long. -/
def fields? (keys : List String) (v : Json) : Option (List (Option Json)) :=
  match v with
  | object entries =>
    (entries.mapM named?).bind fun entries =>
      keys.mapM fun key =>
        match lookup entries key with
        | [] => some none
        | [v] => some (some v)
        | _ => none
  | array items =>
    if items.length ≤ keys.length then
      some (items.map some ++ List.replicate (keys.length - items.length) none)
    else none
  | _ => none

end Lifecycle.Json
