import Lifecycle.Schema
import Lifecycle.Transaction
import Lifecycle.Transition.Move

/-! Transitions by which the fields of an instance are read, written and loaded. -/
namespace Lifecycle.Transition

open State

def ifReadable (tx : Transaction) (v : Verdict) : Verdict :=
  if tx.permitsRead then v else .error .readOutsideTransaction

def ifWritable (tx : Transaction) (v : Verdict) : Verdict :=
  if tx.permitsWrite then v else .error .writeOutsideTransaction

def filledState (tx : Transaction) : State :=
  if tx.isPessimisticActive then persistentClean else nontransactional

def changedState (tx : Transaction) : State :=
  if tx.active then persistentDirty else nontransactionalDirty

/-- Values that were cached before a locking transaction are saved and read again. -/
def readField (tx : Transaction) (identity : Identity) (isLoaded : Bool) (s : State) : Verdict :=
  match s with
  | transient | transientClean | transientDirty => Move.stay s
  | persistentNew | persistentClean | persistentDirty | nontransactionalDirty =>
    ifReadable tx (Move.stay s)
  | hollow =>
    ifReadable tx <|
      if identity = .nondurable ∧ ¬ tx.active ∧ ¬ isLoaded then .error .readOfNondurable
      else Move.enter [] s (filledState tx)
  | nontransactional =>
    ifReadable tx <|
      if tx.isPessimisticActive then
        Move.enter [.saveFields, .refreshLoadedFields] s persistentClean
      else Move.stay s
  | persistentNewDeleted | persistentDeleted => .error .readOfDeleted
  | detachedClean | detachedDirty =>
    if isLoaded then Move.stay s else .error .readOfUndetached

/-- Outside a transaction a write to a transient instance leaves no trace in its state. -/
def writeField (tx : Transaction) (s : State) : Verdict :=
  let saved : List Effect := if tx.options.restoreValues then [.saveFields] else []
  match s with
  | transient | transientDirty | detachedDirty => Move.stay s
  | transientClean =>
    if tx.active then Move.enter [.saveFields] s transientDirty else Move.stay s
  | persistentNew | persistentDirty | nontransactionalDirty => ifWritable tx (Move.stay s)
  | persistentClean => ifWritable tx (Move.enter saved s persistentDirty)
  | hollow => ifWritable tx (Move.enter saved s (changedState tx))
  | nontransactional => ifWritable tx (Move.enter [.saveFields] s (changedState tx))
  | persistentNewDeleted | persistentDeleted => .error .writeOfDeleted
  | detachedClean => Move.enter [] s detachedDirty

/-- Loading without reading: what `load` names is loaded into a persistent instance. -/
def retrieve (tx : Transaction) (load : Effect) (s : State) : Verdict :=
  match s with
  | persistentClean | persistentDirty | nontransactionalDirty => Move.keep [load] s
  | hollow => ifReadable tx (Move.enter [load] s (filledState tx))
  | nontransactional =>
    let effects := (if tx.active then [.saveFields] else []) ++ [load]
    if tx.isPessimisticActive then Move.enter effects s persistentClean else Move.keep effects s
  | _ => Move.stay s

/-- Drops the snapshot, reads the fetch plan again and unloads the rest; changes are lost. -/
def refresh (tx : Transaction) (s : State) : Verdict :=
  let reload : List Effect :=
    [.clearSavedFields, .refreshFieldsInFetchPlan, .unloadNonFetchPlanFields]
  match s with
  | hollow | nontransactional => Move.keep reload s
  | persistentClean =>
    if tx.active then Move.keep reload s else Move.enter reload s nontransactional
  | persistentDirty => Move.enter reload s (filledState tx)
  | nontransactionalDirty => Move.enter reload s nontransactional
  | _ => Move.stay s

end Lifecycle.Transition
