import Lifecycle.Store

/-! Everything that can be asked of a store, as data. The field numbers of an update are machine
words here: a row has to grow to one more than the number, and no vector grows past its capacity,
so that a number from outside can make the call panic in the middle of its work. -/
namespace Lifecycle

/-- What a build says of vectors and of arithmetic. -/
structure Target where
  /-- How many values a vector can hold, as long as there is memory for them. -/
  capacity : Nat
  capacity_lt : capacity < UInt64.size
  /-- Arithmetic that leaves the word panics; otherwise it wraps around. -/
  overflowChecks : Bool

namespace Target

-- A vector takes at most 2^63 - 1 bytes, and a value takes 32 of them.
def debug : Target := ⟨0x3ffffffffffffff, by decide, true⟩

def release : Target := { debug with overflowChecks := false }

end Target

namespace Row

/-- Cuts a row, or continues it by nulls. Where that panics the row stays as it is. -/
def resize (t : Target) (r : Row) (size : Nat) : Except Row Row :=
  if size ≤ r.length then .ok (r.take size)
  else if size ≤ t.capacity then .ok (r ++ List.replicate (size - r.length) .null)
  else .error r

def grow (t : Target) (r : Row) (n : UInt64) : Except Row Row :=
  if n.toNat < r.length then .ok r
  else if n + 1 = 0 ∧ t.overflowChecks then .error r
  else r.resize t (n + 1).toNat

def write (t : Target) (r : Row) (n : UInt64) (v : Value) : Except Row Row := do
  let r ← r.grow t n
  if n.toNat < r.length then .ok (r.set n.toNat v) else .error r

/-- Writes the listed entries, one after the other, and leaves what is written where one panics. -/
def overwrite (t : Target) (r : Row) (changes : List (UInt64 × Value)) : Except Row Row :=
  changes.foldlM (fun r c => r.write t c.1 c.2) r

end Row

namespace Store

inductive Call where
  | fetch (id : ObjectId)
  | insert (id : ObjectId) (row : Row)
  | update (id : ObjectId) (changes : List (UInt64 × Value))
  | delete (id : ObjectId)

inductive Reply where
  | row (r : Row)
  | done
  | refused (f : Failure)
  | panicked

def replied (s : Store) : Except Failure Store → Store × Reply
  | .ok s' => (s', .done)
  | .error f => (s, .refused f)

def replace (s : Store) (id : ObjectId) (row : Row) : Store :=
  ⟨ById.insert Prod.fst (id, row) s.rows⟩

def call (t : Target) (s : Store) : Call → Store × Reply
  | .fetch id =>
    match s.fetch id with
    | .ok row => (s, .row row)
    | .error f => (s, .refused f)
  | .insert id row => s.replied (s.insert id row)
  | .update id changes =>
    match s.row? id with
    | none => (s, .refused (.objectNotFound id))
    | some row =>
      -- The row is changed in place, so that a panic leaves it as it was just then.
      match row.overwrite t changes with
      | .ok row' => (s.replace id row', .done)
      | .error row' => (s.replace id row', .panicked)
  | .delete id => s.replied (s.delete id)

end Store

end Lifecycle
