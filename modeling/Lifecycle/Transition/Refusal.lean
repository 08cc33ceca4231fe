import Lifecycle.Failure

/-! Why a state refuses a request. -/
namespace Lifecycle

inductive Refusal where
  /-- The instance takes no part in the outcome of a transaction. -/
  | notEnlisted
  | readOutsideTransaction
  /-- A field that cannot be found again once the transaction is over. -/
  | readOfNondurable
  | readOfUndetached
  | readOfDeleted
  | writeOutsideTransaction
  | writeOfDeleted
  | notPersistent
  | alreadyDeleted
  | deletedInTransaction
  | deleted
  | uncommittedChanges
  deriving DecidableEq

namespace Refusal

def reason : Refusal → String
  | notEnlisted => "instance is not enlisted"
  | readOutsideTransaction => "no active transaction and nontransactional read is disabled"
  | readOfNondurable => "unloaded field of a nondurable instance read outside a transaction"
  | readOfUndetached => "field was not detached"
  | readOfDeleted | writeOfDeleted | deleted => "instance is deleted"
  | writeOutsideTransaction => "no active transaction and nontransactional write is disabled"
  | notPersistent => "instance is not persistent"
  | alreadyDeleted => "instance is already deleted"
  | deletedInTransaction => "instance is deleted in the current transaction"
  | uncommittedChanges => "instance has uncommitted changes"

/-- The failure of a refused operation. Refused reads and writes are told as such. -/
def failure (object : ObjectId) (state : State) (operation : Operation) (r : Refusal) : Failure :=
  match r with
  | notEnlisted => .illegalTransition object state operation
  | readOutsideTransaction | readOfNondurable | readOfUndetached | readOfDeleted =>
    .notReadable object state r.reason
  | writeOutsideTransaction | writeOfDeleted => .notWritable object state r.reason
  | notPersistent | alreadyDeleted | deletedInTransaction | deleted | uncommittedChanges =>
    .invalidOperation object state operation r.reason

end Refusal

end Lifecycle
