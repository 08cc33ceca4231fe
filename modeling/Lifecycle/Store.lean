import Lifecycle.ById
import Lifecycle.Failure
import Lifecycle.Value

/-! Rows of values by identity. A field number is a place in a vector here, so that the number after
it fits into a word. Calls from outside (`Store.call`) can name any word. -/
namespace Lifecycle

abbrev Row := List Value

namespace Row

/-- The entry of a field; past the end of the row it is null. -/
def entry (r : Row) (n : Nat) : Value :=
  r.getD n .null

/-- Overwrites one entry. A short row is continued by nulls up to it. -/
def put (r : Row) (n : Nat) (v : Value) : Row :=
  if n < r.length then r.set n v else r ++ List.replicate (n - r.length) .null ++ [v]

def update (r : Row) (changes : List (Nat × Value)) : Row :=
  changes.foldl (fun r (n, v) => r.put n v) r

/-- An entry is written, and the others are as before. -/
theorem entry_put (r : Row) (n : Nat) (v : Value) (m : Nat) :
    (r.put n v).entry m = if n = m then v else r.entry m := by
  unfold put entry
  split
  · next h => simp only [List.getD_eq_getElem?_getD, List.getElem?_set]; split <;> simp_all
  · simp only [List.getD_eq_getElem?_getD, List.getElem?_append, List.getElem?_replicate,
      List.length_append, List.length_replicate, List.getElem?_singleton]
    grind

end Row

structure Store where
  rows : List (ObjectId × Row)
  deriving DecidableEq

namespace Store

def empty : Store := ⟨[]⟩

def size (s : Store) : Nat :=
  s.rows.length

def row? (s : Store) (id : ObjectId) : Option Row :=
  (ById.find? Prod.fst id s.rows).map (·.2)

def fetch (s : Store) (id : ObjectId) : Except Failure Row :=
  match s.row? id with
  | some row => .ok row
  | none => .error (.objectNotFound id)

def insert (s : Store) (id : ObjectId) (row : Row) : Except Failure Store :=
  match s.row? id with
  | some _ => .error (.duplicateObject id)
  | none => .ok ⟨ById.insert Prod.fst (id, row) s.rows⟩

def update (s : Store) (id : ObjectId) (changes : List (Nat × Value)) : Except Failure Store :=
  match s.row? id with
  | some row => .ok ⟨ById.insert Prod.fst (id, row.update changes) s.rows⟩
  | none => .error (.objectNotFound id)

def delete (s : Store) (id : ObjectId) : Except Failure Store :=
  match s.row? id with
  | some _ => .ok ⟨ById.erase Prod.fst id s.rows⟩
  | none => .error (.objectNotFound id)

/-- An insertion gives one identity its row. -/
theorem row?_of_insert {s t : Store} {id : ObjectId} {row : Row} (h : s.insert id row = .ok t)
    (other : ObjectId) : t.row? other = if id = other then some row else s.row? other := by
  unfold insert at h
  split at h
  · cases h
  · cases h
    simp only [row?, ById.find?_insert]
    split <;> rfl

/-- An update rewrites one row. -/
theorem row?_of_update {s t : Store} {id : ObjectId} {changes : List (Nat × Value)}
    (h : s.update id changes = .ok t) (other : ObjectId) :
    t.row? other = if id = other then (s.row? id).map (·.update changes) else s.row? other := by
  unfold update at h
  split at h
  · next row hr =>
    cases h
    rw [hr]
    simp only [row?, ById.find?_insert]
    split <;> rfl
  · cases h

/-- A deletion takes one row away. -/
theorem row?_of_delete {s t : Store} {id : ObjectId} (h : s.delete id = .ok t)
    (other : ObjectId) : t.row? other = if other = id then none else s.row? other := by
  unfold delete at h
  split at h
  · cases h
    simp only [row?, ById.find?_erase]
    split <;> rfl
  · cases h

end Store

end Lifecycle
