import Lifecycle.Json.Value
import Lifecycle.Proofs.JsonText

/-! Field values in JSON. No tag tells their kinds apart, so that a value is of the first kind that
its JSON can be read as. Every value but a floating-point number survives that. -/
namespace Lifecycle

private theorem Decimal.all_isDigit_digits (n : Nat) : (digits n).all isDigit = true :=
  List.all_eq_true.mpr fun _ => isDigit_of_mem_digits

namespace Json

private theorem integerLiteral?_digits (n : Nat) :
    integerLiteral? (Decimal.digits n) = some ↑n := by
  unfold integerLiteral?
  split
  next ds hds =>
    have hminus : Decimal.isDigit '-' = true :=
      Decimal.isDigit_of_mem_digits (n := n) (hds ▸ List.mem_cons_self)
    exact absurd hminus (by decide)
  next => rw [if_pos (Decimal.all_isDigit_digits n), Decimal.value_digits]

private theorem integerLiteral?_signed (n : Int) : integerLiteral? (Decimal.signed n) = some n := by
  unfold Decimal.signed
  split
  next hneg =>
    have hvalue := Decimal.value_digits n.natAbs
    simp only [integerLiteral?]
    rw [if_pos ⟨Decimal.all_isDigit_digits n.natAbs, by omega⟩, hvalue]
    congr 1
    omega
  next hpos =>
    rw [integerLiteral?_digits]
    congr 1
    omega

private theorem byte?_digits (b : UInt8) : byte? (.number (Decimal.digits b.toNat)) = some b := by
  have hlt : b.toNat < 256 := b.toNat_lt
  rw [byte?, integer?, integerLiteral?_digits, Option.bind_some, if_pos (by omega),
    Int.toNat_natCast, UInt8.ofNat_toNat]

private theorem listOf?_map {α : Type} {read : Json → Option α} {write : α → Json}
    (h : ∀ x, read (write x) = some x) (xs : List α) :
    (Json.array (xs.map write)).listOf? read = some xs := by
  change (xs.map write).mapM read = some xs
  induction xs with
  | nil => rfl
  | cons x rest ih =>
    rw [List.map_cons, List.mapM_cons, h, ih]
    rfl

end Json

namespace Value
variable {v w : Value}

def isFloat : Value → Bool
  | float _ => true
  | _ => false

/-- The readings of JSON as values, in the order in which the kinds of values are declared. -/
def readings : List (Json → Option Value) :=
  [ fun | .null => some null
        | _ => none,
    fun j => j.bool?.map bool,
    fun j => j.integer?.bind ofInt?,
    fun | .number literal => (Json.floatLiteral? literal).map float
        | _ => none,
    fun j => j.text?.map text,
    fun j => (j.listOf? Json.byte?).map bytes ]

private theorem ofJson?_eq_findSome? (j : Json) :
    ofJson? j = readings.findSome? fun read => read j := by
  cases j with
  | number literal =>
    simp only [ofJson?, ofNumber?, readings, List.findSome?_cons, Json.bool?, Json.integer?,
      Json.text?, Json.listOf?, Json.array?, Option.map_none, Option.bind_none]
    cases (Json.integerLiteral? literal).bind ofInt? with
    | some v => rfl
    | none => cases (Json.floatLiteral? literal).map float <;> rfl
  | string s => cases s <;> rfl
  | array items =>
    simp only [ofJson?, readings, List.findSome?_cons, Json.bool?, Json.integer?, Json.text?,
      Option.map_none, Option.bind_none]
    cases ((Json.array items).listOf? Json.byte?).map bytes <;> rfl
  | null | bool | object => rfl

private theorem wellFormed_toJson (hv : v.isFloat = false) : v.toJson.WellFormed := by
  cases v with
  | null => exact .null
  | bool b => exact .bool b
  | integer n => exact .number (Json.Token.isNumber_signed n.toInt)
  | float => cases hv
  | text s => exact .text s
  | bytes bs =>
    refine .array fun j hj => ?_
    obtain ⟨b, -, rfl⟩ := List.mem_map.mp hj
    exact .number (Json.Token.isNumber_digits b.toNat)

private theorem ofJson?_toJson (hv : v.isFloat = false) : ofJson? v.toJson = some v := by
  cases v with
  | null | bool | text => rfl
  | integer n =>
    rw [toJson, ofJson?, ofNumber?, Json.integerLiteral?_signed, Option.bind_some, ofInt?_toInt]
  | float => cases hv
  | bytes bs =>
    rw [toJson, ofJson?, Json.listOf?_map Json.byte?_digits, Option.map_some]

/-- Nothing in JSON stands for infinity or a NaN: they come back as null. -/
theorem nonFinite_lost {x : Binary64} (h : x.isFinite = false) :
    (Json.parse? (float x).toJson.compact).bind ofJson? = some null := by
  have hnull : (float x).toJson = .null := by simp [toJson, h]
  rw [hnull]
  rfl

/-- A value that is no floating-point number is read back from its JSON text by trying the kinds in
their order, so that no two such values have the same text. -/
theorem json_gives_back (hv : v.isFloat = false) :
    (Json.parse? v.toJson.compact).bind ofJson? = some v ∧
    (∀ j, ofJson? j = readings.findSome? fun read => read j) ∧
    ∀ w : Value, w.isFloat = false → w.toJson.compact = v.toJson.compact → w = v := by
  have back {w : Value} (hw : w.isFloat = false) :
      (Json.parse? w.toJson.compact).bind ofJson? = some w := by
    rw [Json.parse?_compact (wellFormed_toJson hw), Option.bind_some, ofJson?_toJson hw]
  refine ⟨back hv, ofJson?_eq_findSome?, fun w hw htext => ?_⟩
  rw [← Option.some_inj, ← back hw, htext, back hv]

/-- A quotation mark, a control character and a character beyond sixteen bits. -/
theorem json_gives_back_escaped :
    (text "\"\x01𝄞").isFloat = false ∧ (text "\"\x01𝄞").toJson.compact = "\"\\\"\\u0001𝄞\"" ∧
    (Json.parse? "\"\\\"\\u0001𝄞\"").bind ofJson? = some (text "\"\x01𝄞") ∧
    ∀ w : Value, w.isFloat = false → w.toJson.compact = "\"\\\"\\u0001𝄞\"" → w = text "\"\x01𝄞" :=
  have h := json_gives_back (v := text "\"\x01𝄞") rfl
  ⟨rfl, rfl, h.1, h.2.2⟩

end Value

end Lifecycle
