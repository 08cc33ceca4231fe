import Lifecycle.Outcome
import Lifecycle.Transition.Access
import Lifecycle.Transition.Boundary
import Lifecycle.Transition.Membership
import Lifecycle.Transition.Request

/-! The transition function, and a stand-in for an instance that writes down what transitions would
do to it. -/
namespace Lifecycle

/-- The verdict on a request, given the transaction and how instances of the class are
identified. -/
def transition (tx : Transaction) (identity : Identity) (r : Request) (s : State) : Verdict :=
  match r with
  | .makePersistent => Transition.makePersistent tx s
  | .deletePersistent => Transition.deletePersistent s
  | .makeTransactional refreshFields => Transition.makeTransactional refreshFields s
  | .makeNontransactional => Transition.makeNontransactional s
  | .makeTransient useFetchPlan detachAllOnCommit =>
    Transition.makeTransient useFetchPlan detachAllOnCommit s
  | .commit => Transition.commit tx s
  | .rollback => Transition.rollback tx s
  | .refresh => Transition.refresh tx s
  | .evict => Transition.evict s
  | .readField isLoaded => Transition.readField tx identity isLoaded s
  | .writeField => Transition.writeField tx s
  | .retrieve fetchPlanOnly =>
    Transition.retrieve tx
      (if fetchPlanOnly then .loadUnloadedFieldsInFetchPlan else .loadUnloadedFields) s
  | .retrieveWith plan => Transition.retrieve tx (.loadUnloadedFieldsInPlan plan) s
  | .detach => Transition.detach s
  | .attach => Transition.attach s
  | .serialize => Transition.serialize tx s
  | .begin => Transition.begin s

structure Recorder where
  object : ObjectId
  schema : Schema
  tx : Transaction
  /-- Every load fails, as if the row had been removed. -/
  failingLoads : Bool
  /-- What was done, the oldest first. -/
  calls : List Effect

namespace Recorder

/-- Writes effects down up to the first load that fails. -/
def record (r : Recorder) (effects : List Effect) : Outcome Recorder Unit :=
  let (before, after) := effects.span fun e => !(r.failingLoads && e.isLoad)
  let r' := { r with calls := r.calls ++ before }
  if after.isEmpty then .done r' () else .failed r' (.objectNotFound r.object)

def apply (r : Recorder) (request : Request) (s : State) : Outcome Recorder State :=
  match transition r.tx r.schema.identity request s with
  | .error refusal => .failed r (refusal.failure r.object s request.operation)
  | .ok move => (r.record move.effects).map fun _ => move.next

end Recorder

end Lifecycle
