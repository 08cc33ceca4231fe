import Lifecycle.FetchPlan

/-! The complete list of what a transition may do to an instance besides changing its state. -/
namespace Lifecycle

inductive Effect where
  /-- Take a snapshot of the fields for rollback. -/
  | saveFields
  /-- Go back to the snapshot and drop it. -/
  | restoreFields
  /-- Drop the snapshot. -/
  | clearSavedFields
  /-- Drop the values outside the primary key. -/
  | clearNonPrimaryKeyFields
  /-- Take the fields outside the primary key for unloaded, but keep their values. -/
  | clearLoadedFlags
  /-- Drop the values outside the active fetch plan. -/
  | unloadNonFetchPlanFields
  | loadUnloadedFields
  | loadUnloadedFieldsInFetchPlan
  | loadUnloadedFieldsInPlan (plan : FetchPlan)
  | refreshLoadedFields
  | refreshFieldsInFetchPlan
  /-- Join the transaction. -/
  | enlist
  /-- Leave the transaction. -/
  | evict
  /-- Leave management: the instance becomes a plain value. -/
  | disconnect
  deriving DecidableEq

namespace Effect

/-- The effect reads the instance's row, so it fails when there is none. -/
def isLoad : Effect → Bool
  | loadUnloadedFields | loadUnloadedFieldsInFetchPlan | loadUnloadedFieldsInPlan _
  | refreshLoadedFields | refreshFieldsInFetchPlan => true
  | _ => false

def name : Effect → String
  | saveFields => "save_fields"
  | restoreFields => "restore_fields"
  | clearSavedFields => "clear_saved_fields"
  | clearNonPrimaryKeyFields => "clear_non_primary_key_fields"
  | clearLoadedFlags => "clear_loaded_flags"
  | unloadNonFetchPlanFields => "unload_non_fetch_plan_fields"
  | loadUnloadedFields => "load_unloaded_fields"
  | loadUnloadedFieldsInFetchPlan => "load_unloaded_fields_in_fetch_plan"
  | loadUnloadedFieldsInPlan _ => "load_unloaded_fields_in_plan"
  | refreshLoadedFields => "refresh_loaded_fields"
  | refreshFieldsInFetchPlan => "refresh_fields_in_fetch_plan"
  | enlist => "enlist_in_transaction"
  | evict => "evict_from_transaction"
  | disconnect => "disconnect"

def text (e : Effect) : String :=
  match e with
  | loadUnloadedFieldsInPlan plan => e.name ++ "(" ++ ",".intercalate plan.groups ++ ")"
  | _ => e.name

end Effect

end Lifecycle
