import Lifecycle.Json.Reading
import Lifecycle.ObjectId
import Lifecycle.Value

/-! Field values and identities in JSON. Nothing tells the kinds of values apart but the way they
are written: the spelling of a number decides between integers and floating-point numbers, and
bytes are arrays. -/
namespace Lifecycle

namespace Value

def jsonFloat : Binary64.Layout where
  plainFrom := some (-5)
  plainBelow := some 16
  pointZero := true
  exponentPlus := true
  tie := .toEven

/-- There is no infinity and no NaN in JSON. -/
def toJson : Value → Json
  | null => .null
  | bool b => .bool b
  | integer n => .number (Decimal.signed n.toInt)
  | float x => if x.isFinite then .number (jsonFloat.finite x) else .null
  | text s => .text s
  | bytes bs => .array (bs.map fun b => .number (Decimal.digits b.toNat))

/-- An integer that fits is an integer, and every other number a floating-point number. -/
def ofNumber? (literal : List Char) : Option Value :=
  match (Json.integerLiteral? literal).bind ofInt? with
  | some v => some v
  | none => (Json.floatLiteral? literal).map float

def ofJson? (v : Json) : Option Value :=
  match v with
  | .null => some null
  | .bool b => some (bool b)
  | .number literal => ofNumber? literal
  | .string s => s.map text
  | .array _ => (v.listOf? Json.byte?).map bytes
  | .object _ => none

end Value

namespace ObjectId

def toJson (i : ObjectId) : Json :=
  .array (i.bytes.map fun b => .number (Decimal.digits b.toNat))

def ofJson? (v : Json) : Option ObjectId :=
  (v.listOf? Json.byte?).bind ofBytes?

end ObjectId

end Lifecycle
