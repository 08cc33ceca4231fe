import Lifecycle.Binary64.Layout
import Lifecycle.Text.Inspect

/-! Values of fields. -/
namespace Lifecycle

inductive Value where
  | null
  | bool (b : Bool)
  | integer (n : Int64)
  | float (x : Binary64)
  | text (s : String)
  | bytes (bs : List UInt8)
  deriving DecidableEq

namespace Value

instance : Inhabited Value := ⟨null⟩

def isNull : Value → Bool
  | null => true
  | _ => false

def ofInt? (n : Int) : Option Value :=
  if Int64.minValue.toInt ≤ n ∧ n ≤ Int64.maxValue.toInt then some (integer (.ofInt n)) else none

/-- An integer of 64 bits fits. -/
theorem ofInt?_toInt (k : Int64) : ofInt? k.toInt = some (integer k) := by
  rw [ofInt?, if_pos ⟨k.minValue_le_toInt, k.toInt_le⟩, Int64.ofInt_toInt]

/-- What fits is the value of that integer. -/
theorem ofInt?_eq_some {n : Int} {v : Value} (h : ofInt? n = some v) :
    ∃ k : Int64, k.toInt = n ∧ v = integer k := by
  unfold ofInt? at h
  split at h
  next hn =>
    cases h
    exact ⟨_, Int64.toInt_ofInt_of_le hn.1 (Int.lt_add_one_of_le hn.2), rfl⟩
  next => cases h

/-- What does not fit lies beyond the bounds of 64 bits. -/
theorem ofInt?_eq_none {n : Int} :
    ofInt? n = none ↔ n < -9223372036854775808 ∨ 9223372036854775807 < n := by
  have hmin : Int64.minValue.toInt = -9223372036854775808 := rfl
  have hmax : Int64.maxValue.toInt = 9223372036854775807 := rfl
  unfold ofInt?
  rw [hmin, hmax]
  split
  next h => simp; omega
  next h => simp; omega

/-- Equality as the values themselves have it: it tells no two zeros apart, and nothing equals
a NaN. -/
def same : Value → Value → Bool
  | float x, float y => x.same y
  | v, w => v == w

/-- Floating-point numbers in running text: no exponent, and no point in a whole number. -/
def plainFloat : Binary64.Layout where
  plainFrom := none
  plainBelow := none
  pointZero := false
  exponentPlus := false
  tie := .up

/-- Floating-point numbers for inspection: positional from 1e-4 up to 1e16. -/
def inspectFloat : Binary64.Layout where
  plainFrom := some (-4)
  plainBelow := some 16
  pointZero := true
  exponentPlus := false
  tie := .up

def integerText (n : Int64) : String :=
  String.ofList (Decimal.signed n.toInt)

def display : Value → String
  | null => "null"
  | bool b => Text.Inspect.flag b
  | integer n => integerText n
  | float x => plainFloat.render x
  | text s => Text.quoted s
  | bytes bs => "<" ++ toString bs.length ++ " bytes>"

def inspect : Value → String
  | null => "Null"
  | bool b => Text.Inspect.applied "Bool" (Text.Inspect.flag b)
  | integer n => Text.Inspect.applied "Integer" (integerText n)
  | float x => Text.Inspect.applied "Float" (inspectFloat.render x)
  | text s => Text.Inspect.applied "Text" (Text.quoted s)
  | bytes bs =>
    Text.Inspect.applied "Bytes" (Text.Inspect.list (bs.map fun b => toString b.toNat))

end Value

end Lifecycle
