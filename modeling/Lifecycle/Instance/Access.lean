import Lifecycle.Instance

/-! What an application does with a managed instance beyond plain transitions: reading and writing
fields, writing changes to the store, and detaching. -/
namespace Lifecycle.Instance

def ifDeclared {α : Type} (o : Instance) (n : Nat) (go : Outcome Instance α) :
    Outcome Instance α :=
  if n < o.schema.fieldCount then go
  else .failed o (.unknownField o.schema.name (toString n))

def supply (store : Store) (n : Nat) (o : Instance) : Outcome Instance Unit :=
  if ¬ o.cache.isLoaded n ∧ o.connected ∧ o.state.isPersistent then
    .change o (o.load store fun m _ => m = n)
  else .done o ()

/-- Reads a field, from the store if the state lets it be read but it is not loaded. -/
def readField (tx : Transaction) (store : Store) (n : Nat) (o : Instance) :
    Outcome Instance Value :=
  o.ifDeclared n <|
    (o.apply tx store (.readField (o.cache.isLoaded n))).andThen fun o' _ =>
      (o'.supply store n).andThen fun o'' _ => .done o'' (o''.cache.value n)

/-- Writes a field. The primary key of a stored instance is fixed. -/
def writeField (tx : Transaction) (store : Store) (n : Nat) (v : Value) (o : Instance) :
    Outcome Instance Unit :=
  o.ifDeclared n <|
    if o.schema.isPrimaryKey n ∧ o.state.isPersistent ∧ ¬ o.state.isNew then
      .failed o (.invalidOperation o.id o.state .writeField
        "primary key fields of a stored instance are immutable")
    else
      (o.apply tx store .writeField).andThen fun o' _ =>
        .done { o' with cache := o'.cache.put n (.written v) } ()

/-- The store once the pending changes of the instance are written: a new row, no row, or a row
with the changed fields overwritten. -/
def written (store : Store) (o : Instance) : Except Failure Store :=
  match o.state.isNew, o.state.isDeleted with
  | true, true => .ok store
  | true, false => store.insert o.id o.cache.values
  | false, true => store.delete o.id
  | false, false =>
    if o.state.isDirty ∧ o.cache.changes ≠ [] then store.update o.id o.cache.changes
    else .ok store

/-- Writes pending changes. If the store refuses, nothing changes. -/
def flush (store : Store) (o : Instance) : Outcome (Store × Instance) Unit :=
  if o.state.isPersistent then
    .change (store, o)
      ((o.written store).map fun store' => (store', { o with cache := o.cache.clearDirty }))
  else .done (store, o) ()

/-- Changes that neither a deletion nor a detached copy would carry to the store. -/
def hasPendingChanges (o : Instance) : Bool :=
  o.state.isPersistent && o.state.isDirty && !o.state.isDeleted

/-- Detaches the instance. Pending changes are written first, or stand in the way while a
transaction could still be rolled back. -/
def detach (tx : Transaction) (store : Store) (o : Instance) :
    Outcome (Store × Instance) State :=
  if o.hasPendingChanges then
    if tx.active then
      .failed (store, o) (.invalidOperation o.id o.state .detach
        "pending changes must be committed before detaching")
    else
      (o.flush store).andThen fun (store', o') _ =>
        (o'.apply tx store' .detach).within (store', ·)
  else (o.apply tx store .detach).within (store, ·)

end Lifecycle.Instance
