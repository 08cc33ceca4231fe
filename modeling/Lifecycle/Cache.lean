import Lifecycle.Value

/-! The fields of one instance in memory: a value for each, whether it is loaded and whether it was
changed, and perhaps a snapshot of all this. -/
namespace Lifecycle

structure Slot where
  value : Value
  loaded : Bool
  dirty : Bool
  deriving DecidableEq

namespace Slot

def unloaded : Slot := ⟨.null, false, false⟩

def clean (v : Value) : Slot := ⟨v, true, false⟩

def written (v : Value) : Slot := ⟨v, true, true⟩

def same (a b : Slot) : Bool :=
  a.value.same b.value && a.loaded == b.loaded && a.dirty == b.dirty

end Slot

structure Cache where
  slots : List Slot
  saved : Option (List Slot)
  deriving DecidableEq

namespace Cache

def unloaded (count : Nat) : Cache :=
  ⟨List.replicate count .unloaded, none⟩

def ofValues (values : List Value) : Cache :=
  ⟨values.map .clean, none⟩

def size (c : Cache) : Nat :=
  c.slots.length

def values (c : Cache) : List Value :=
  c.slots.map (·.value)

def slot? (c : Cache) (n : Nat) : Option Slot :=
  c.slots[n]?

def value (c : Cache) (n : Nat) : Value :=
  (c.slot? n).elim .null (·.value)

def isLoaded (c : Cache) (n : Nat) : Bool :=
  (c.slot? n).any (·.loaded)

def hasSaved (c : Cache) : Bool :=
  c.saved.isSome

/-- The numbers of the fields that satisfy `p`, increasing. -/
def fieldsWhere (c : Cache) (p : Nat → Slot → Bool) : List Nat :=
  c.slots.zipIdx.filterMap fun (s, n) => if p n s then some n else none

def loadedFields (c : Cache) : List Nat :=
  c.fieldsWhere fun _ s => s.loaded

def unloadedFields (c : Cache) : List Nat :=
  c.fieldsWhere fun _ s => !s.loaded

def changes (c : Cache) : List (Nat × Value) :=
  c.slots.zipIdx.filterMap fun (s, n) => if s.dirty then some (n, s.value) else none

def update (c : Cache) (p : Nat → Slot → Bool) (f : Nat → Slot → Slot) : Cache :=
  { c with slots := c.slots.mapIdx fun n s => if p n s then f n s else s }

def put (c : Cache) (n : Nat) (s : Slot) : Cache :=
  { c with slots := c.slots.set n s }

/-- Takes the selected fields from a row; a short row is continued by nulls. -/
def load (c : Cache) (selected : Nat → Slot → Bool) (row : List Value) : Cache :=
  c.update selected fun n _ => .clean (row.getD n .null)

def unload (c : Cache) (selected : Nat → Bool) : Cache :=
  c.update (fun n _ => selected n) fun _ _ => .unloaded

def markUnloaded (c : Cache) (selected : Nat → Bool) : Cache :=
  c.update (fun n _ => selected n) fun _ s => { s with loaded := false }

def markAllLoaded (c : Cache) : Cache :=
  { c with slots := c.slots.map fun s => { s with loaded := true } }

def clearDirty (c : Cache) : Cache :=
  { c with slots := c.slots.map fun s => { s with dirty := false } }

def save (c : Cache) : Cache :=
  { c with saved := some c.slots }

/-- Goes back to the snapshot and drops it. Without one nothing changes. -/
def restore (c : Cache) : Cache :=
  ⟨c.saved.getD c.slots, none⟩

def clearSaved (c : Cache) : Cache :=
  { c with saved := none }

def sameSlots (a b : List Slot) : Bool :=
  a.length == b.length && (a.zip b).all fun (s, t) => s.same t

/-- Equality by the values' own equality, snapshots included. -/
def same (a b : Cache) : Bool :=
  sameSlots a.slots b.slots &&
    match a.saved, b.saved with
    | none, none => true
    | some s, some t => sameSlots s t
    | _, _ => false

/-- The slots that satisfy the condition are replaced. -/
@[simp]
theorem slot?_update (c : Cache) (p : Nat → Slot → Bool) (f : Nat → Slot → Slot) (n : Nat) :
    (c.update p f).slot? n = (c.slot? n).map fun s => if p n s then f n s else s := by
  simp [slot?, update]

/-- A selected field is clean, with the value of the row, and the others stay. -/
theorem slot?_load (c : Cache) (selected : Nat → Slot → Bool) (row : List Value) (n : Nat) :
    (c.load selected row).slot? n =
      (c.slot? n).map fun s => if selected n s then .clean (row.getD n .null) else s :=
  slot?_update ..

/-- A selected field is forgotten, and the others stay. -/
theorem slot?_unload (c : Cache) (selected : Nat → Bool) (n : Nat) :
    (c.unload selected).slot? n =
      (c.slot? n).map fun s => if selected n then .unloaded else s :=
  slot?_update ..

@[simp]
theorem size_update (c : Cache) (p : Nat → Slot → Bool) (f : Nat → Slot → Slot) :
    (c.update p f).size = c.size := by
  simp [size, update]

/-- A slot is put in its place, if there is such a place. -/
theorem slot?_put (c : Cache) (n : Nat) (s : Slot) (m : Nat) :
    (c.put n s).slot? m = if n = m then (c.slot? m).map fun _ => s else c.slot? m := by
  simp only [slot?, put, List.getElem?_set']
  rfl

/-- What is put into a field is there. -/
theorem slot?_put_self {c : Cache} {n : Nat} {s : Slot} (h : n < c.size) :
    (c.put n s).slot? n = some s := by
  rw [slot?_put, if_pos rfl, slot?, List.getElem?_eq_getElem h]
  rfl

@[simp]
theorem size_put (c : Cache) (n : Nat) (s : Slot) : (c.put n s).size = c.size := by
  simp [size, put]

/-- A field is listed exactly if it satisfies the condition. -/
theorem mem_fieldsWhere {c : Cache} {p : Nat → Slot → Bool} {n : Nat} :
    n ∈ c.fieldsWhere p ↔ ∃ s, c.slot? n = some s ∧ p n s = true := by
  simp only [fieldsWhere, slot?, List.mem_filterMap, Option.ite_none_right_eq_some,
    Option.some.injEq, Prod.exists, List.mem_zipIdx_iff_getElem?]
  constructor
  · rintro ⟨s, m, h, hp, rfl⟩
    exact ⟨s, h, hp⟩
  · rintro ⟨s, h, hp⟩
    exact ⟨s, n, h, hp, rfl⟩

/-- A field is listed exactly if it was changed, with its value. -/
theorem mem_changes {c : Cache} {n : Nat} {v : Value} :
    (n, v) ∈ c.changes ↔ ∃ s, c.slot? n = some s ∧ s.dirty = true ∧ s.value = v := by
  simp only [changes, slot?, List.mem_filterMap, Option.ite_none_right_eq_some,
    Option.some.injEq, Prod.exists, List.mem_zipIdx_iff_getElem?, Prod.mk.injEq]
  constructor
  · rintro ⟨s, m, h, hd, rfl, rfl⟩
    exact ⟨s, h, hd, rfl⟩
  · rintro ⟨s, h, hd, rfl⟩
    exact ⟨s, n, h, hd, rfl, rfl⟩

end Cache

end Lifecycle
