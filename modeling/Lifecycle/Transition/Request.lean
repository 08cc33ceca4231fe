import Lifecycle.FetchPlan
import Lifecycle.Operation

/-! Requests: operations together with their arguments. -/
namespace Lifecycle

inductive Request where
  | makePersistent
  | deletePersistent
  | makeTransactional (refreshFields : Bool)
  | makeNontransactional
  | makeTransient (useFetchPlan detachAllOnCommit : Bool)
  | commit
  | rollback
  | refresh
  | evict
  /-- A read of a field that is loaded already or not. -/
  | readField (isLoaded : Bool)
  | writeField
  /-- Of the active fetch plan only, or of every field. -/
  | retrieve (fetchPlanOnly : Bool)
  | retrieveWith (plan : FetchPlan)
  | detach
  | attach
  | serialize
  | begin
  deriving DecidableEq

namespace Request

def operation : Request → Operation
  | makePersistent => .makePersistent
  | deletePersistent => .deletePersistent
  | makeTransactional _ => .makeTransactional
  | makeNontransactional => .makeNontransactional
  | makeTransient _ _ => .makeTransient
  | commit => .commit
  | rollback => .rollback
  | refresh => .refresh
  | evict => .evict
  | readField _ => .readField
  | writeField => .writeField
  | retrieve _ | retrieveWith _ => .retrieve
  | detach => .detach
  | attach => .attach
  | serialize => .serialize
  | begin => .begin

/-- An operation with its plainest arguments: nothing is loaded beforehand, the field that is read
is unloaded, and a retrieve keeps to the fetch plan. -/
def plain (detachAllOnCommit : Bool) : Operation → Request
  | .makePersistent => makePersistent
  | .deletePersistent => deletePersistent
  | .makeTransactional => makeTransactional false
  | .makeNontransactional => makeNontransactional
  | .makeTransient => makeTransient false detachAllOnCommit
  | .commit => commit
  | .rollback => rollback
  | .refresh => refresh
  | .evict => evict
  | .readField => readField false
  | .writeField => writeField
  | .retrieve => retrieve true
  | .detach => detach
  | .attach => attach
  | .serialize => serialize
  | .begin => begin

def inspect (r : Request) : String :=
  match r with
  | makeTransactional refreshFields =>
    Text.Inspect.record r.operation.inspect [("refresh_fields", Text.Inspect.flag refreshFields)]
  | makeTransient useFetchPlan detachAllOnCommit =>
    Text.Inspect.record r.operation.inspect
      [("use_fetch_plan", Text.Inspect.flag useFetchPlan),
        ("detach_all_on_commit", Text.Inspect.flag detachAllOnCommit)]
  | readField isLoaded =>
    Text.Inspect.record r.operation.inspect [("is_loaded", Text.Inspect.flag isLoaded)]
  | retrieve fetchPlanOnly =>
    Text.Inspect.record r.operation.inspect [("fg_only", Text.Inspect.flag fetchPlanOnly)]
  | retrieveWith plan => Text.Inspect.applied "RetrieveWith" plan.inspect
  | _ => r.operation.inspect

end Request

end Lifecycle
