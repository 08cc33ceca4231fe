import Mathlib.Data.List.Induction
import Lifecycle.Cache
import Lifecycle.Proofs.Overwriting

/-! The store as a map of rows. A call reaches the row of one identity, so that each row has a
history of its own: the insertion it came from, and the updates since. What does not fit into this
is an update that panics. -/
namespace Lifecycle.Store

namespace Call

def id : Call → ObjectId
  | fetch id | insert id _ | update id _ | delete id => id

/-- Whether the call is made of a row that is there, or that is missing, as it should be. -/
def Fits (row? : Option Row) : Call → Prop
  | insert _ _ => row? = none
  | fetch _ | update _ _ | delete _ => row?.isSome = true

/-- Whether the row can take up what is listed. -/
def HasRoom (t : Target) (row? : Option Row) : Call → Prop
  | update _ changes => ∀ row ∈ row?, row.HasRoom t changes
  | fetch _ | insert _ _ | delete _ => True

def refusal : Call → Failure
  | insert id _ => .duplicateObject id
  | fetch id | update id _ | delete id => .objectNotFound id

def changes? (id : ObjectId) : Call → Option (List (UInt64 × Value))
  | update i changes => if i = id then some changes else none
  | fetch _ | insert _ _ | delete _ => none

end Call

variable {t : Target} {s : Store} {c : Call} {id : ObjectId} {calls : List Call} {row : Row}

def run (t : Target) (s : Store) (calls : List Call) : Store :=
  calls.foldl (fun s c => (s.call t c).1) s

private theorem call_update (hrow : s.row? id = some row) (changes : List (UInt64 × Value)) :
    s.call t (.update id changes) = (s.replace id (row.written t changes),
      match row.overwrite t changes with | .ok _ => .done | .error _ => .panicked) := by
  simp only [call, hrow, Row.written]
  cases row.overwrite t changes <;> rfl

namespace Call
variable {row? : Option Row}

end Call

/-- The fields of a cache are positions in a vector. So a flush is an update that has room. -/
theorem call_update_of_cache (c : Cache) (h : c.size ≤ t.capacity) (s : Store) (id : ObjectId) :
    s.call t (.update id (Row.words c.changes)) = s.replied (s.update id c.changes) := by
  have hpositions : ∀ d ∈ c.changes, d.1 < t.capacity := by
    rintro ⟨n, v⟩ hd
    obtain ⟨slot, hslot, -⟩ := Cache.mem_changes.mp hd
    exact Nat.lt_of_lt_of_le (List.getElem?_eq_some_iff.mp hslot).1 h
  have hwords : Row.positions (Row.words c.changes) = c.changes :=
    Row.positions_words fun d hd => Nat.lt_trans (hpositions d hd) t.capacity_lt
  cases hrow : s.row? id with
  | none => simp [call, update, hrow, replied]
  | some row =>
    have hroom : row.HasRoom t (Row.words c.changes) := by
      intro d hd
      have hmem : (d.1.toNat, d.2) ∈ c.changes := hwords ▸ List.mem_map_of_mem hd
      exact Nat.lt_of_lt_of_le (hpositions _ hmem) (Nat.le_max_right ..)
    rw [call_update hrow, Row.written_of_hasRoom hroom, Row.overwrite_of_hasRoom hroom, hwords,
      update, hrow]
    rfl

end Lifecycle.Store
