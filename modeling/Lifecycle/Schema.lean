import Lifecycle.Failure
import Lifecycle.FetchPlan

/-! Classes of instances: their fields, numbered in the order of declaration, and how their
instances are identified. -/
namespace Lifecycle

inductive Identity where
  /-- The primary key fields. -/
  | application
  /-- A key that the store makes up. -/
  | datastore
  /-- Nothing that lasts: an instance cannot be found again once its fields are gone. -/
  | nondurable
  deriving DecidableEq

namespace Identity

def all : List Identity := [application, datastore, nondurable]

def name : Identity → String
  | application => "application"
  | datastore => "datastore"
  | nondurable => "nondurable"

def ofName? (s : String) : Option Identity :=
  all.find? (·.name == s)

end Identity

structure Field where
  name : String
  primaryKey : Bool
  defaultFetchGroup : Bool
  fetchGroups : List String
  deriving DecidableEq

namespace Field

def plain (name : String) : Field := ⟨name, false, true, []⟩

def key (name : String) : Field := ⟨name, true, true, []⟩

def onDemand (name : String) : Field := ⟨name, false, false, []⟩

def inGroup (f : Field) (group : String) : Field :=
  { f with fetchGroups := f.fetchGroups ++ [group] }

/-- Whether a plan selects the field. The primary key belongs to every plan. -/
def inPlan (f : Field) (plan : FetchPlan) : Bool :=
  f.primaryKey || plan.contains FetchPlan.allGroup
    || (f.defaultFetchGroup && plan.contains FetchPlan.defaultGroup)
    || f.fetchGroups.any plan.contains

end Field

structure Schema where
  name : String
  identity : Identity
  fields : List Field
  deriving DecidableEq

namespace Schema

def fieldCount (c : Schema) : Nat :=
  c.fields.length

def fieldNumber? (c : Schema) (name : String) : Option Nat :=
  c.fields.findIdx? (·.name == name)

def requireField (c : Schema) (name : String) : Except Failure Nat :=
  match c.fieldNumber? name with
  | some n => .ok n
  | none => .error (.unknownField c.name name)

def isPrimaryKey (c : Schema) (n : Nat) : Bool :=
  c.fields[n]?.any (·.primaryKey)

def selects (c : Schema) (plan : FetchPlan) (n : Nat) : Bool :=
  c.fields[n]?.any (·.inPlan plan)

def keyFields (c : Schema) : List Nat :=
  (List.range c.fieldCount).filter c.isPrimaryKey

def planFields (c : Schema) (plan : FetchPlan) : List Nat :=
  (List.range c.fieldCount).filter (c.selects plan)

section
variable {c : Schema} {plan : FetchPlan} {name : String} {n : Nat}

/-- A name has no number if no field has that name. -/
theorem fieldNumber?_eq_none_iff :
    c.fieldNumber? name = none ↔ ∀ f ∈ c.fields, f.name ≠ name := by
  rw [fieldNumber?, List.findIdx?_eq_none_iff]
  simp

/-- A field is required by the number that it is found by. -/
theorem requireField_eq_ok_iff : c.requireField name = .ok n ↔ c.fieldNumber? name = some n := by
  unfold requireField
  cases c.fieldNumber? name <;> simp

/-- A field that is required is missing only if no field has the name, and the failure says so. -/
theorem requireField_eq_error_iff {failure : Failure} :
    c.requireField name = .error failure ↔
      failure = .unknownField c.name name ∧ ∀ f ∈ c.fields, f.name ≠ name := by
  rw [← fieldNumber?_eq_none_iff, requireField]
  cases c.fieldNumber? name with
  | none => simp [eq_comm]
  | some n => simp

/-- A field is part of the key if it is declared as one. -/
theorem isPrimaryKey_iff : c.isPrimaryKey n = true ↔
    ∃ hn : n < c.fields.length, c.fields[n].primaryKey = true := by
  rw [isPrimaryKey, Option.any_eq_true]
  constructor
  · rintro ⟨f, hf, hkey⟩
    obtain ⟨hn, rfl⟩ := List.getElem?_eq_some_iff.mp hf
    exact ⟨hn, hkey⟩
  · rintro ⟨hn, hkey⟩
    exact ⟨_, List.getElem?_eq_getElem hn, hkey⟩

/-- The fields of the key are listed, and no others. -/
theorem mem_keyFields : n ∈ c.keyFields ↔ c.isPrimaryKey n = true := by
  rw [keyFields, List.mem_filter, List.mem_range, and_iff_right_iff_imp]
  intro hkey
  exact (isPrimaryKey_iff.mp hkey).1

/-- No undeclared field is selected. -/
theorem lt_of_selects (h : c.selects plan n = true) : n < c.fieldCount := by
  obtain ⟨f, hf, _⟩ := (Option.any_eq_true _ _).mp h
  exact (List.getElem?_eq_some_iff.mp hf).1

/-- The fields that a plan selects are listed, and no others. -/
theorem mem_planFields : n ∈ c.planFields plan ↔ c.selects plan n = true := by
  rw [planFields, List.mem_filter, List.mem_range, and_iff_right_iff_imp]
  exact lt_of_selects

/-- The key belongs to every plan. -/
theorem selects_of_isPrimaryKey (h : c.isPrimaryKey n = true) : c.selects plan n = true := by
  obtain ⟨f, hf, hk⟩ := (Option.any_eq_true _ _).mp h
  rw [selects, hf]
  simp [Field.inPlan, hk]

end

inductive Fault where
  | noFields
  | repeatedField (name : String)
  | noKey

def Fault.message : Fault → String
  | noFields => "class declares no persistent fields"
  | repeatedField name => "field " ++ name ++ " declared twice"
  | noKey => "application identity requires a primary key field"

/-- The first name that occurs before, among `seen` or in the list itself. -/
def firstRepeat (seen : List String) : List String → Option String
  | [] => none
  | name :: rest => if name ∈ seen then some name else firstRepeat (name :: seen) rest

/-- The first fault in the order: no fields, a name that is declared twice, a missing key. -/
def fault? (c : Schema) : Option Fault :=
  if c.fields = [] then some .noFields
  else
    match firstRepeat [] (c.fields.map (·.name)) with
    | some name => some (.repeatedField name)
    | none =>
      if c.identity = .application ∧ ¬ c.fields.any (·.primaryKey) then some .noKey else none

def build (c : Schema) : Except Failure Schema :=
  match c.fault? with
  | none => .ok c
  | some fault => .error (.invalidMetadata c.name fault.message)

end Schema

end Lifecycle
