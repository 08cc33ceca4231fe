import Mathlib.Tactic.MkIffOfInductiveProp
import Lifecycle.Schema

/-! Declaring a class. What is accepted is a list of fields with names of their own, so that names
and numbers stand for each other. -/
namespace Lifecycle.Schema

variable {c c' : Schema} {seen names : List String} {name : String} {i n : Nat}

def blank (name : String) : Schema := ⟨name, .application, []⟩

def identifiedBy (c : Schema) (identity : Identity) : Schema := { c with identity }

def declare (c : Schema) (f : Field) : Schema := { c with fields := c.fields ++ [f] }

def declaration (name : String) (identity : Identity) (fields : List Field) : Schema :=
  fields.foldl declare ((blank name).identifiedBy identity)

private theorem foldl_declare (c : Schema) (fields : List Field) :
    fields.foldl declare c = { c with fields := c.fields ++ fields } := by
  induction fields generalizing c with
  | nil => simp
  | cons f rest ih =>
    rw [List.foldl_cons, ih]
    simp [declare]

private theorem declaration_eq (name : String) (identity : Identity) (fields : List Field) :
    declaration name identity fields = ⟨name, identity, fields⟩ :=
  foldl_declare _ _

private theorem firstRepeat_eq_none_iff :
    firstRepeat seen names = none ↔ names.Nodup ∧ ∀ name ∈ names, name ∉ seen := by
  -- Every name is looked up among those before it.
  induction names generalizing seen with
  | nil => simp [firstRepeat]
  | cons name rest ih =>
    unfold firstRepeat
    split
    next hseen =>
      refine iff_of_false (by simp) fun h => ?_
      exact h.2 name List.mem_cons_self hseen
    next hnew =>
      rw [ih, List.nodup_cons]
      simp only [List.mem_cons, not_or, forall_eq_or_imp]
      constructor
      · rintro ⟨hrest, hapart⟩
        exact ⟨⟨fun hname => (hapart name hname).1 rfl, hrest⟩, hnew, fun x hx => (hapart x hx).2⟩
      · rintro ⟨⟨hname, hrest⟩, -, hapart⟩
        exact ⟨hrest, fun x hx => ⟨fun heq => hname (heq ▸ hx), hapart x hx⟩⟩

/-- A declaration that nothing is wrong with. -/
@[mk_iff]
structure WellDeclared (c : Schema) : Prop where
  nonempty : c.fields ≠ []
  distinct : c.fields.Pairwise fun f g => f.name ≠ g.name
  key : c.identity = .application → ∃ f ∈ c.fields, f.primaryKey = true

private theorem fault?_eq_none_iff : c.fault? = none ↔ c.WellDeclared := by
  have hdistinct : firstRepeat [] (c.fields.map (·.name)) = none ↔
      c.fields.Pairwise fun f g => f.name ≠ g.name := by
    rw [firstRepeat_eq_none_iff, List.Nodup, List.pairwise_map]
    simp
  rw [wellDeclared_iff, ← hdistinct, fault?]
  split
  next hempty => simp [hempty]
  next hfields =>
    split
    next name hrepeat => simp [hrepeat]
    next hnone => simp [hfields, hnone]

private theorem build_eq_ok_iff : c.build = .ok c' ↔ c' = c ∧ c.WellDeclared := by
  rw [← fault?_eq_none_iff, build]
  cases c.fault? with
  | none => simp [eq_comm]
  | some fault => simp

/-- The first field of a name is the only one. -/
theorem fieldNumber?_eq_some_iff (h : c.WellDeclared) :
    c.fieldNumber? name = some i ↔ ∃ hi : i < c.fields.length, c.fields[i].name = name := by
  rw [fieldNumber?, List.findIdx?_eq_some_iff_getElem]
  constructor
  · rintro ⟨hi, hname, -⟩
    exact ⟨hi, eq_of_beq hname⟩
  · rintro ⟨hi, rfl⟩
    refine ⟨hi, beq_self_eq_true _, fun j hj hsame => ?_⟩
    exact List.pairwise_iff_getElem.mp h.distinct j i (Nat.lt_trans hj hi) hi hj (eq_of_beq hsame)

private theorem keyFields_increasing (c : Schema) : c.keyFields.Pairwise (· < ·) :=
  List.pairwise_lt_range.filter _

/-- The names of the fields and the numbers below their count stand for each other, and the key is
found among the numbers. -/
structure Indexed (c : Schema) : Prop where
  numbered : ∀ i (hi : i < c.fields.length), c.fieldNumber? c.fields[i].name = some i
  named : ∀ name i, c.fieldNumber? name = some i →
    ∃ hi : i < c.fields.length, c.fields[i].name = name
  required : ∀ name i, c.requireField name = .ok i ↔ c.fieldNumber? name = some i
  refused : ∀ name failure, c.requireField name = .error failure ↔
    failure = .unknownField c.name name ∧ ∀ f ∈ c.fields, f.name ≠ name
  key : ∀ n, c.isPrimaryKey n = true ↔ n ∈ c.keyFields
  keyMarked : ∀ n, n ∈ c.keyFields ↔ ∃ hn : n < c.fields.length, c.fields[n].primaryKey = true
  keyIncreasing : c.keyFields.Pairwise (· < ·)

private theorem WellDeclared.indexed (h : c.WellDeclared) : c.Indexed where
  numbered _ hi := (fieldNumber?_eq_some_iff h).mpr ⟨hi, rfl⟩
  named _ _ := (fieldNumber?_eq_some_iff h).mp
  required _ _ := requireField_eq_ok_iff
  refused _ _ := requireField_eq_error_iff
  key _ := mem_keyFields.symm
  keyMarked _ := mem_keyFields.trans isPrimaryKey_iff
  keyIncreasing := keyFields_increasing c

/-- A class is built if and only if it has fields, their names differ, and there is a key where the
identity is made of one. Then no field is lost or moved, and each is found by its name. -/
theorem build_makes_bijection (name : String) (identity : Identity)
    (fields : List Field) :
    ((∃ c, (declaration name identity fields).build = .ok c) ↔
      fields ≠ [] ∧ (fields.Pairwise fun f g => f.name ≠ g.name) ∧
        (identity = .application → ∃ f ∈ fields, f.primaryKey = true)) ∧
    ∀ c, (declaration name identity fields).build = .ok c →
      c.name = name ∧ c.identity = identity ∧ c.fields = fields ∧ c.Indexed := by
  rw [declaration_eq]
  constructor
  · simp only [build_eq_ok_iff, exists_eq_left, wellDeclared_iff]
  · intro c hbuilt
    obtain ⟨rfl, hwell⟩ := build_eq_ok_iff.mp hbuilt
    exact ⟨rfl, rfl, rfl, hwell.indexed⟩

def orderLine : Schema where
  name := "OrderLine"
  identity := .application
  fields := [.key "order", .plain "article", .key "line", (Field.onDemand "remark").inGroup "texts"]

/-- The key of a line of an order is made of the first and the third field. -/
theorem build_makes_bijection_orderLine :
    (declaration "OrderLine" .application orderLine.fields).build = .ok orderLine ∧
      orderLine.fieldNumber? "line" = some 2 ∧
      orderLine.requireField "Line" = .error (.unknownField "OrderLine" "Line") ∧
      2 ∈ orderLine.keyFields ∧ 3 ∉ orderLine.keyFields ∧
      orderLine.keyFields.Pairwise (· < ·) := by
  have hbuilt : (declaration "OrderLine" .application orderLine.fields).build = .ok orderLine := rfl
  obtain ⟨-, -, -, hindexed⟩ :=
    (build_makes_bijection "OrderLine" .application orderLine.fields).2 orderLine hbuilt
  refine ⟨hbuilt, hindexed.numbered 2 (by decide), ?_, ?_, ?_, hindexed.keyIncreasing⟩
  · exact (hindexed.refused "Line" _).mpr ⟨rfl, by decide⟩
  · exact (hindexed.key 2).mp rfl
  · rw [← hindexed.key 3]
    decide

end Lifecycle.Schema
