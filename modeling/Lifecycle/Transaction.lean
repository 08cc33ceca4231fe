import Lifecycle.Failure

/-! The transaction of a session: its options, whether it is open, and a count of the times it
was begun. -/
namespace Lifecycle

structure Options where
  optimistic : Bool
  nontransactionalRead : Bool
  nontransactionalWrite : Bool
  /-- Values survive commit. -/
  retainValues : Bool
  /-- Values are restored by rollback. -/
  restoreValues : Bool
  detachAllOnCommit : Bool
  deriving DecidableEq

namespace Options

def standard : Options := ⟨false, false, false, false, false, false⟩

def union (a b : Options) : Options where
  optimistic := a.optimistic || b.optimistic
  nontransactionalRead := a.nontransactionalRead || b.nontransactionalRead
  nontransactionalWrite := a.nontransactionalWrite || b.nontransactionalWrite
  retainValues := a.retainValues || b.retainValues
  restoreValues := a.restoreValues || b.restoreValues
  detachAllOnCommit := a.detachAllOnCommit || b.detachAllOnCommit

def entries (o : Options) : List (String × Bool) :=
  [("optimistic", o.optimistic), ("nontransactional_read", o.nontransactionalRead),
    ("nontransactional_write", o.nontransactionalWrite), ("retain_values", o.retainValues),
    ("restore_values", o.restoreValues), ("detach_all_on_commit", o.detachAllOnCommit)]

def inspect (o : Options) : String :=
  Text.Inspect.record "TransactionOptions"
    (o.entries.map fun (name, value) => (name, Text.Inspect.flag value))

end Options

structure Transaction where
  options : Options
  active : Bool
  /-- The number of the current cycle, or of the last one; zero before the first. -/
  current : UInt64
  deriving DecidableEq

namespace Transaction

def inactive (options : Options) : Transaction := ⟨options, false, 0⟩

def opened (options : Options) : Transaction := ⟨options, true, 1⟩

/-- Open, and instances are locked when they are read. -/
def isPessimisticActive (t : Transaction) : Bool :=
  t.active && !t.options.optimistic

def permitsRead (t : Transaction) : Bool :=
  t.active || t.options.nontransactionalRead

def permitsWrite (t : Transaction) : Bool :=
  t.active || t.options.nontransactionalWrite

def begin (t : Transaction) : Except Failure Transaction :=
  if t.active then .error .transactionAlreadyActive
  else .ok { t with active := true, current := t.current + 1 }

def finish (t : Transaction) : Except Failure Transaction :=
  if t.active then .ok { t with active := false } else .error .transactionNotActive

def ensureActive (t : Transaction) : Except Failure Unit :=
  if t.active then .ok () else .error .transactionNotActive

def cycleText (n : UInt64) : String :=
  "txn:" ++ toString n

def inspect (t : Transaction) : String :=
  Text.Inspect.record "LocalTransaction"
    [("options", t.options.inspect), ("active", Text.Inspect.flag t.active),
      ("current", toString t.current)]

end Transaction

end Lifecycle
