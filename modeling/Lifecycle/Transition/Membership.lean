import Lifecycle.Transaction
import Lifecycle.Transition.Move

/-! Transitions by which an instance gains or loses persistence, or joins and leaves the
transaction on its own. -/
namespace Lifecycle.Transition

open State

/-- A rollback that restores values goes back to the ones held here, unless the instance was
changed before and holds older ones. -/
def makePersistent (tx : Transaction) (s : State) : Verdict :=
  match s with
  | transient | transientClean | transientDirty =>
    Move.enter (if tx.options.restoreValues ∧ ¬ s.isDirty then [.saveFields] else []) s
      persistentNew
  | _ => Move.stay s

def deletePersistent (s : State) : Verdict :=
  match s with
  | transient | transientClean | transientDirty => .error .notPersistent
  | persistentNewDeleted | persistentDeleted => .error .alreadyDeleted
  | persistentNew => Move.enter [.clearLoadedFlags] s persistentNewDeleted
  | persistentClean | persistentDirty | hollow | nontransactional | nontransactionalDirty =>
    Move.enter [.clearLoadedFlags] s persistentDeleted
  | detachedClean | detachedDirty => Move.stay s

def makeTransactional (refreshFields : Bool) (s : State) : Verdict :=
  match s with
  | transient => Move.enter [] s transientClean
  | hollow | nontransactional =>
    Move.enter (if refreshFields then [.refreshLoadedFields] else []) s persistentClean
  | _ => Move.stay s

def makeNontransactional (s : State) : Verdict :=
  match s with
  | transientClean => Move.enter [] s transient
  | persistentClean => Move.enter [.clearSavedFields] s nontransactional
  | transientDirty | persistentNew | persistentDirty => .error .uncommittedChanges
  | persistentNewDeleted | persistentDeleted => .error .deletedInTransaction
  | _ => Move.stay s

/-- Pending changes may only be given up where every instance is detached by commit. -/
def makeTransient (useFetchPlan detachAllOnCommit : Bool) (s : State) : Verdict :=
  let release := Move.enter (if useFetchPlan then [.loadUnloadedFieldsInFetchPlan] else []) s
    transient
  match s with
  | hollow | persistentClean | nontransactional => release
  | persistentNew | persistentDirty | nontransactionalDirty =>
    if detachAllOnCommit then release else .error .uncommittedChanges
  | persistentNewDeleted | persistentDeleted => .error .deletedInTransaction
  | _ => Move.stay s

def evict (s : State) : Verdict :=
  match s with
  | persistentClean | nontransactional =>
    Move.enter [.clearNonPrimaryKeyFields, .clearSavedFields] s hollow
  | persistentNewDeleted | persistentDeleted => .error .deleted
  | _ => Move.stay s

def detach (s : State) : Verdict :=
  match s with
  | hollow | persistentNew | persistentClean | persistentDirty | nontransactional
  | nontransactionalDirty => Move.enter [] s detachedClean
  | persistentNewDeleted | persistentDeleted => .error .deleted
  | _ => Move.stay s

def attach (s : State) : Verdict :=
  match s with
  | detachedClean => Move.enter [] s persistentClean
  | detachedDirty => Move.enter [] s persistentDirty
  | _ => Move.stay s

/-- Within a locking transaction what is serialized is enlisted, so that its image is consistent. -/
def serialize (tx : Transaction) (s : State) : Verdict :=
  match s with
  | hollow | nontransactional =>
    if tx.isPessimisticActive then Move.enter [] s persistentClean else Move.stay s
  | _ => Move.stay s

end Lifecycle.Transition
