import Mathlib.Data.List.DropRight
import Mathlib.Data.List.TakeDrop
import Mathlib.Data.Nat.Digits.Defs
import Lifecycle.Scenario.Step

/-! How the steps of a scenario are read: blanks around a step do not count, the first equals sign
ends the field that is written, and what follows it is a keyword, an integer that fits into 64 bits,
or a text. -/
namespace Lifecycle

namespace Text
variable {cs : List Char}

structure Trimmed (cs : List Char) : Prop where
  first : ∀ c ∈ cs.head?, isBlank c = false
  last : ∀ c ∈ cs.getLast?, isBlank c = false

private theorem trimStart_eq_self (h : ∀ c ∈ cs.head?, isBlank c = false) : trimStart cs = cs := by
  cases cs with
  | nil => rfl
  | cons c rest => exact List.dropWhile_cons_of_neg (by simp [h c rfl])

private theorem trimEnd_eq_self (h : ∀ c ∈ cs.getLast?, isBlank c = false) : trimEnd cs = cs := by
  refine List.rdropWhile_eq_self_iff.mpr fun hne => ?_
  simp [h _ (List.getLast_mem_getLast? hne)]

/-- A text without blanks at its ends is left as it is. -/
theorem Trimmed.trim (h : Trimmed cs) : trim cs = cs := by
  rw [Text.trim, trimStart_eq_self h.first, trimEnd_eq_self h.last]

/-- What is cut off at the end leaves the beginning alone. -/
theorem trimmed_trim (cs : List Char) : Trimmed (trim cs) where
  first c hc := by
    have hpre : trim cs <+: trimStart cs := List.rdropWhile_prefix isBlank (trimStart cs)
    have hhead : (trimStart cs).head? = some c := by
      obtain ⟨rest, hrest⟩ := hpre
      rw [← hrest, List.head?_append, hc]
      rfl
    have hnot := List.head?_dropWhile_not isBlank cs
    rw [show cs.dropWhile isBlank = trimStart cs from rfl, hhead] at hnot
    exact hnot
  last c hc := by
    obtain ⟨hne, rfl⟩ := List.mem_getLast?_eq_getLast hc
    exact Bool.eq_false_of_not_eq_true (List.rdropWhile_last_not isBlank (trimStart cs) hne)

end Text

namespace Decimal

private theorem value_eq_ofDigits (ds : List Char) :
    value ds = Nat.ofDigits 10 (ds.map digitValue).reverse := by
  induction ds using List.reverseRecOn with
  | nil => rfl
  | append_singleton ds d ih =>
    rw [value_append_singleton, ih, List.map_append, List.reverse_append, List.map_singleton,
      List.reverse_singleton, List.singleton_append, Nat.ofDigits_cons]
    exact Nat.add_comm ..

structure IsNumeral (ds : List Char) (n : Nat) : Prop where
  nonempty : ds ≠ []
  digits : ∀ d ∈ ds, isDigit d = true
  value : n = Nat.ofDigits 10 (ds.map digitValue).reverse

/-- Digits after at most one sign, and the integer that they stand for. -/
inductive Spells : List Char → Int → Prop
  | plain {ds : List Char} {n : Nat} (h : IsNumeral ds n) : Spells ds n
  | plus {ds : List Char} {n : Nat} (h : IsNumeral ds n) : Spells ('+' :: ds) n
  | minus {ds : List Char} {n : Nat} (h : IsNumeral ds n) : Spells ('-' :: ds) (-n)

private theorem isNumeral_digits (n : Nat) : IsNumeral (digits n) n where
  nonempty := digits_ne_nil n
  digits _ h := isDigit_of_mem_digits h
  value := by rw [← value_eq_ofDigits, value_digits]

private theorem spells_signed (n : Int) : Spells (signed n) n := by
  unfold signed
  split
  next h =>
    have hminus := Spells.minus (isNumeral_digits n.natAbs)
    rwa [show -(n.natAbs : Int) = n by omega] at hminus
  next h =>
    have hplain := Spells.plain (isNumeral_digits n.natAbs)
    rwa [show (n.natAbs : Int) = n by omega] at hplain

private theorem Spells.ne_nil {raw : List Char} {n : Int} (h : Spells raw n) : raw ≠ [] := by
  cases h with
  | plain h => exact h.nonempty
  | plus h | minus h => exact List.cons_ne_nil _ _

private theorem Spells.mem {raw : List Char} {n : Int} (h : Spells raw n) {c : Char}
    (hc : c ∈ raw) :
    isDigit c = true ∨ c = '+' ∨ c = '-' := by
  cases h with
  | plain h => exact .inl (h.digits c hc)
  | plus h | minus h =>
    rcases List.mem_cons.mp hc with rfl | hc
    · simp
    · exact .inl (h.digits c hc)

end Decimal

namespace Scenario.Step

open Decimal (IsNumeral Spells)

private theorem digits?_iff {ds : List Char} {n : Int} :
    digits? ds = some n ↔ ∃ m : Nat, n = m ∧ IsNumeral ds m := by
  unfold digits?
  split
  next h =>
    rw [List.all_eq_true] at h
    refine ⟨fun hn => ⟨Decimal.value ds, by simpa using hn.symm, h.1, h.2,
      Decimal.value_eq_ofDigits ds⟩, ?_⟩
    rintro ⟨m, rfl, hm⟩
    rw [hm.value, Decimal.value_eq_ofDigits]
  next h =>
    refine iff_of_false (by simp) ?_
    rintro ⟨m, rfl, hm⟩
    exact h ⟨hm.nonempty, List.all_eq_true.mpr hm.digits⟩

/-- A sign is no digit, so that a numeral has one reading. -/
theorem integer?_iff {raw : List Char} {n : Int} : integer? raw = some n ↔ Spells raw n := by
  unfold integer?
  split
  next ds =>
    rw [digits?_iff]
    constructor
    · rintro ⟨m, rfl, hm⟩
      exact .plus hm
    · intro h
      cases h with
      | plain h => exact absurd (h.digits '+' List.mem_cons_self) (by decide)
      | plus h => exact ⟨_, rfl, h⟩
  next ds =>
    rw [Option.map_eq_some_iff]
    constructor
    · rintro ⟨_, hds, rfl⟩
      obtain ⟨m, rfl, hm⟩ := digits?_iff.mp hds
      exact .minus hm
    · intro h
      cases h with
      | plain h => exact absurd (h.digits '-' List.mem_cons_self) (by decide)
      | minus h => exact ⟨_, digits?_iff.mpr ⟨_, rfl, h⟩, rfl⟩
  next hplus hminus =>
    rw [digits?_iff]
    constructor
    · rintro ⟨m, rfl, hm⟩
      exact .plain hm
    · intro h
      cases h with
      | plain h => exact ⟨_, rfl, h⟩
      | plus h => exact absurd rfl (hplus _)
      | minus h => exact absurd rfl (hminus _)

/-- What a text stands for when it is written to a field. -/
inductive Denotes (r : String) : Value → Prop
  | null (h : r = "null") : Denotes r .null
  | bool (b : Bool) (h : r = Text.Inspect.flag b) : Denotes r (.bool b)
  | integer (k : Int64) (h : Spells r.toList k.toInt) : Denotes r (.integer k)
  | text (hnull : r ≠ "null") (hbool : ∀ b, r ≠ Text.Inspect.flag b)
      (hinteger : ∀ k : Int64, ¬ Spells r.toList k.toInt) : Denotes r (.text r)

/-- A numeral is made of digits and signs. -/
theorem not_spells_of_mem {raw : List Char} {c : Char} (hc : c ∈ raw)
    (h : ¬ (Decimal.isDigit c = true ∨ c = '+' ∨ c = '-')) (n : Int) : ¬ Spells raw n :=
  fun hn => h (hn.mem hc)

private theorem not_keyword_of_spells {r : String} {n : Int} (h : Spells r.toList n) :
    r ≠ "null" ∧ ∀ b, r ≠ Text.Inspect.flag b := by
  constructor
  · rintro rfl
    exact not_spells_of_mem (c := 'n') (by decide) (by decide) n h
  · rintro b rfl
    exact not_spells_of_mem (c := 'e') (by cases b <;> decide) (by decide) n h

private theorem fitting_iff {raw : List Char} {v : Value} :
    (integer? raw).bind Value.ofInt? = some v ↔
      ∃ k : Int64, Spells raw k.toInt ∧ v = .integer k := by
  rw [Option.bind_eq_some_iff]
  constructor
  · rintro ⟨n, hn, hv⟩
    obtain ⟨k, rfl, rfl⟩ := Value.ofInt?_eq_some hv
    exact ⟨k, integer?_iff.mp hn, rfl⟩
  · rintro ⟨k, hk, rfl⟩
    exact ⟨_, integer?_iff.mpr hk, Value.ofInt?_toInt k⟩

private theorem parseValue_of_not_keyword {r : String} (hnull : r ≠ "null")
    (hbool : ∀ b, r ≠ Text.Inspect.flag b) :
    parseValue r.toList = ((integer? r.toList).bind Value.ofInt?).getD (.text r) := by
  have htrue : r ≠ "true" := hbool true
  have hfalse : r ≠ "false" := hbool false
  rw [parseValue, if_neg (mt String.toList_inj.mp hnull), if_neg (mt String.toList_inj.mp htrue),
    if_neg (mt String.toList_inj.mp hfalse), String.ofList_toList]
  cases integer? r.toList <;> rfl

/-- A value is denoted by exactly the texts that are read as it. -/
theorem denotes_iff {r : String} {v : Value} : Denotes r v ↔ parseValue r.toList = v := by
  constructor
  · intro h
    cases h with
    | null h => subst h; rfl
    | bool b h => subst h; cases b <;> rfl
    | integer k h =>
      obtain ⟨hnull, hbool⟩ := not_keyword_of_spells h
      rw [parseValue_of_not_keyword hnull hbool, fitting_iff.mpr ⟨k, h, rfl⟩, Option.getD_some]
    | text hnull hbool hinteger =>
      have hnone : (integer? r.toList).bind Value.ofInt? = none := by
        refine Option.eq_none_iff_forall_ne_some.mpr fun v hv => ?_
        obtain ⟨k, hk, _⟩ := fitting_iff.mp hv
        exact hinteger k hk
      rw [parseValue_of_not_keyword hnull hbool, hnone, Option.getD_none]
  · rintro rfl
    by_cases hnull : r = "null"
    · subst hnull
      exact .null rfl
    by_cases hbool : ∃ b, r = Text.Inspect.flag b
    · obtain ⟨b, rfl⟩ := hbool
      cases b <;> exact .bool _ rfl
    have hbool (b : Bool) : r ≠ Text.Inspect.flag b := fun hb => hbool ⟨b, hb⟩
    rw [parseValue_of_not_keyword hnull hbool]
    cases hv : (integer? r.toList).bind Value.ofInt? with
    | none =>
      refine .text hnull hbool fun k hk => ?_
      rw [fitting_iff.mpr ⟨k, hk, rfl⟩] at hv
      cases hv
    | some v =>
      obtain ⟨k, hk, rfl⟩ := fitting_iff.mp hv
      exact .integer k hk

def writing (field r : String) : String :=
  "write:" ++ field ++ "=" ++ r

private theorem parseWrite_eq {whole : String} {field raw : List Char} (h : '=' ∉ field) :
    parseWrite whole (field ++ '=' :: raw) =
      .ok (write (String.ofList field) (parseValue raw)) := by
  have hspan : (field ++ '=' :: raw).span (· ≠ '=') = (field, '=' :: raw) := by
    have hin : ∀ c ∈ field, decide (c ≠ '=') = true := by
      intro c hc
      exact decide_eq_true fun heq => h (heq ▸ hc)
    rw [List.span_eq_takeWhile_dropWhile, List.takeWhile_append_of_pos hin,
      List.dropWhile_append_of_pos hin]
    simp
  rw [parseWrite, hspan]

private theorem parse_of_writes {s : String} {rest : List Char}
    (h : Text.trim s.toList = "write:".toList ++ rest) :
    parse s = parseWrite (String.ofList ("write:".toList ++ rest)) rest := by
  have hread : "read:".toList.isPrefixOf? ("write:".toList ++ rest) = none := rfl
  have hwrite : "write:".toList.isPrefixOf? ("write:".toList ++ rest) = some rest := rfl
  simp only [parse, h, hread, hwrite]

private theorem trimmed_writing {field r : String}
    (h : ∀ c ∈ r.toList.getLast?, Text.isBlank c = false) :
    Text.Trimmed (writing field r).toList where
  first c hc := by
    have hw : (writing field r).toList.head? = some 'w' := by
      simp [writing, String.toList_append]
    cases hw.symm.trans hc
    rfl
  last c hc := by
    simp only [writing, String.toList_append, List.getLast?_append] at hc
    cases hr : r.toList.getLast? with
    | some d =>
      rw [hr] at hc
      cases hc
      exact h c hr
    | none =>
      rw [hr] at hc
      cases hc
      rfl

/-- A written value is read as it stands. -/
theorem parse_writing {field r : String} (hfield : '=' ∉ field.toList)
    (hr : ∀ c ∈ r.toList.getLast?, Text.isBlank c = false) :
    parse (writing field r) = .ok (write field (parseValue r.toList)) := by
  have htrim : Text.trim (writing field r).toList =
      "write:".toList ++ (field.toList ++ '=' :: r.toList) := by
    rw [(trimmed_writing hr).trim]
    simp [writing, String.toList_append]
  rw [parse_of_writes htrim, parseWrite_eq hfield, String.ofList_toList]

private theorem isBlank_of_isDigit {c : Char} (h : Decimal.isDigit c = true) :
    Text.isBlank c = false := by
  simp only [Decimal.isDigit, Bool.and_eq_true, decide_eq_true_eq, Char.le_def,
    UInt32.le_iff_toNat_le] at h
  have hlow : 48 ≤ c.toNat := h.1
  have hhigh : c.toNat ≤ 57 := h.2
  simp [Text.isBlank, Text.inRanges, Text.blankRanges]
  omega

/-- The value of a step that writes is read from its text exactly. It is null, true or false for the
keywords, the integer that the text spells if that fits into 64 bits, and the text itself for
everything else. So every integer is read back from its digits. -/
theorem written_value_read {field r : String} (hfield : '=' ∉ field.toList)
    (hr : ∀ c ∈ r.toList.getLast?, Text.isBlank c = false) :
    (∃ v, parse (writing field r) = .ok (write field v)) ∧
    (∀ v, parse (writing field r) = .ok (write field v) ↔ Denotes r v) ∧
    (∀ n, Spells r.toList n → n < -9223372036854775808 ∨ 9223372036854775807 < n →
      parse (writing field r) = .ok (write field (.text r))) ∧
    ('=' ∈ r.toList → parse (writing field r) = .ok (write field (.text r))) ∧
    ∀ k : Int64, parse (writing field (Value.integerText k)) = .ok (write field (.integer k)) := by
  have hread (v : Value) : parse (writing field r) = .ok (write field v) ↔ Denotes r v := by
    rw [parse_writing hfield hr, denotes_iff]
    simp
  refine ⟨⟨_, parse_writing hfield hr⟩, hread, fun n hn hlarge => ?_, fun heq => ?_, fun k => ?_⟩
  · obtain ⟨hnull, hbool⟩ := not_keyword_of_spells hn
    rw [parse_writing hfield hr, parseValue_of_not_keyword hnull hbool, integer?_iff.mpr hn,
      Option.bind_some, Value.ofInt?_eq_none.mpr hlarge, Option.getD_none]
  · refine (hread _).mpr (.text ?_ ?_ fun k => not_spells_of_mem heq (by decide) _)
    · rintro rfl
      revert heq
      decide
    · rintro b rfl
      revert heq
      cases b <;> decide
  · have hk : Spells (Value.integerText k).toList k.toInt := by
      rw [Value.integerText, String.toList_ofList]
      exact Decimal.spells_signed k.toInt
    have hlast : ∀ c ∈ (Value.integerText k).toList.getLast?, Text.isBlank c = false := by
      intro c hc
      rcases hk.mem (List.mem_of_mem_getLast? hc) with hd | rfl | rfl
      · exact isBlank_of_isDigit hd
      · decide
      · decide
    rw [parse_writing hfield hlast, denotes_iff.mp (.integer k hk)]

/-- The largest integer with a sign and leading zeros, the next one, a text with blanks and an
equals sign of its own, and the empty text. -/
theorem written_value_read_largest :
    '=' ∉ "unit price".toList ∧
      parse "write:unit price=+009223372036854775807" =
        .ok (write "unit price" (.integer Int64.maxValue)) ∧
      parse "write:unit price=9223372036854775808" =
        .ok (write "unit price" (.text "9223372036854775808")) ∧
      parse "write:unit price= 1 = one" = .ok (write "unit price" (.text " 1 = one")) ∧
      parse "write:unit price=" = .ok (write "unit price" (.text "")) := by
  have hfield : '=' ∉ "unit price".toList := by decide
  refine ⟨hfield, ?_, ?_, ?_, ?_⟩
  · obtain ⟨_, hread, _⟩ :=
      written_value_read (r := "+009223372036854775807") hfield (by rintro c ⟨⟩; rfl)
    have hdigits : ∀ d ∈ "009223372036854775807".toList, Decimal.isDigit d = true :=
      List.all_eq_true.mp rfl
    exact (hread _).mpr (.integer Int64.maxValue (.plus ⟨by decide, hdigits, by decide⟩))
  · obtain ⟨_, _, hlarge, _⟩ :=
      written_value_read (r := "9223372036854775808") hfield (by rintro c ⟨⟩; rfl)
    have hdigits : ∀ d ∈ "9223372036854775808".toList, Decimal.isDigit d = true :=
      List.all_eq_true.mp rfl
    exact hlarge 9223372036854775808 (.plain ⟨by decide, hdigits, by decide⟩) (.inr (by decide))
  · obtain ⟨_, _, _, hequals, _⟩ :=
      written_value_read (r := " 1 = one") hfield (by rintro c ⟨⟩; rfl)
    exact hequals (by decide)
  · obtain ⟨_, hread, _⟩ := written_value_read (r := "") hfield (by rintro c ⟨⟩)
    exact (hread _).mpr (.text (by decide) (by decide) fun k hk => hk.ne_nil rfl)

end Scenario.Step

end Lifecycle
