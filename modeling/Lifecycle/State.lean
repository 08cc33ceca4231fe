import Lifecycle.Operation

/-! The thirteen lifecycle states of a managed instance. -/
namespace Lifecycle

inductive State where
  | transient
  | transientClean
  | transientDirty
  | persistentNew
  | persistentClean
  | persistentDirty
  | hollow
  | persistentNewDeleted
  | persistentDeleted
  | nontransactional
  | nontransactionalDirty
  | detachedClean
  | detachedDirty
  deriving DecidableEq

namespace State

def all : List State :=
  [transient, transientClean, transientDirty, persistentNew, persistentClean, persistentDirty,
    hollow, persistentNewDeleted, persistentDeleted, nontransactional, nontransactionalDirty,
    detachedClean, detachedDirty]

/-- The instance stands for a row of the store. -/
def isPersistent : State → Bool
  | persistentNew | persistentClean | persistentDirty | hollow | persistentNewDeleted
  | persistentDeleted | nontransactional | nontransactionalDirty => true
  | _ => false

def isTransactional : State → Bool
  | transientClean | transientDirty | persistentNew | persistentClean | persistentDirty
  | persistentNewDeleted | persistentDeleted => true
  | _ => false

/-- Its values differ from the last clean ones. -/
def isDirty : State → Bool
  | transientDirty | persistentNew | persistentDirty | persistentNewDeleted | persistentDeleted
  | nontransactionalDirty | detachedDirty => true
  | _ => false

def isNew : State → Bool
  | persistentNew | persistentNewDeleted => true
  | _ => false

def isDeleted : State → Bool
  | persistentNewDeleted | persistentDeleted => true
  | _ => false

def code : State → String
  | transient => "TRANSIENT"
  | transientClean => "T_CLEAN"
  | transientDirty => "T_DIRTY"
  | persistentNew => "P_NEW"
  | persistentClean => "P_CLEAN"
  | persistentDirty => "P_DIRTY"
  | hollow => "HOLLOW"
  | persistentNewDeleted => "P_NEW_DELETED"
  | persistentDeleted => "P_DELETED"
  | nontransactional => "P_NONTRANS"
  | nontransactionalDirty => "P_NONTRANS_DIRTY"
  | detachedClean => "DETACHED_CLEAN"
  | detachedDirty => "DETACHED_DIRTY"

def inspect : State → String
  | transient => "Transient"
  | transientClean => "TransientClean"
  | transientDirty => "TransientDirty"
  | persistentNew => "PersistentNew"
  | persistentClean => "PersistentClean"
  | persistentDirty => "PersistentDirty"
  | hollow => "Hollow"
  | persistentNewDeleted => "PersistentNewDeleted"
  | persistentDeleted => "PersistentDeleted"
  | nontransactional => "PersistentNontransactional"
  | nontransactionalDirty => "PersistentNontransactionalDirty"
  | detachedClean => "DetachedClean"
  | detachedDirty => "DetachedDirty"

def ofCode? (s : String) : Option State :=
  all.find? (·.code == s)

def parse (s : String) : Except NameError State :=
  match ofCode? (Name.constantCase s) with
  | some state => .ok state
  | none => .error (.state s)

end State

end Lifecycle
