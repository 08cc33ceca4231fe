import Lifecycle.Transaction
import Lifecycle.Transition.Move

/-! Transitions at the beginning and the end of a transaction. -/
namespace Lifecycle.Transition

open State

/-- A change made outside any transaction is taken up by the next one. -/
def begin (s : State) : Verdict :=
  match s with
  | nontransactionalDirty => Move.keep [.saveFields, .enlist] s
  | _ => Move.stay s

def commit (tx : Transaction) (s : State) : Verdict :=
  match s with
  | hollow | nontransactional => .error .notEnlisted
  | persistentNew | persistentClean | persistentDirty =>
    if tx.options.retainValues then Move.enter [.clearSavedFields] s nontransactional
    else Move.enter [.clearSavedFields, .clearNonPrimaryKeyFields] s hollow
  | persistentNewDeleted | persistentDeleted =>
    Move.enter
      ((if tx.options.retainValues then [] else [.clearNonPrimaryKeyFields])
        ++ [.clearSavedFields]) s transient
  | nontransactionalDirty => Move.enter [.clearSavedFields] s nontransactional
  | transientDirty => Move.enter [.clearSavedFields] s transientClean
  | _ => Move.stay s

/-- Values of transient instances are restored whatever the options say. -/
def rollback (tx : Transaction) (s : State) : Verdict :=
  match s with
  | hollow | nontransactional => .error .notEnlisted
  | persistentClean | persistentDirty | persistentDeleted | nontransactionalDirty =>
    if tx.options.restoreValues then Move.enter [.restoreFields] s nontransactional
    else Move.enter [.clearNonPrimaryKeyFields, .clearSavedFields] s hollow
  | persistentNew | persistentNewDeleted =>
    Move.enter [if tx.options.restoreValues then .restoreFields else .clearSavedFields] s transient
  | transientDirty => Move.enter [.restoreFields] s transientClean
  | _ => Move.stay s

end Lifecycle.Transition
