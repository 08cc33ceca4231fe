import Lifecycle.Cache
import Lifecycle.Outcome
import Lifecycle.Store
import Lifecycle.Transition

/-! A managed instance: its fields in memory and its lifecycle state, and what transitions do
to it. The state is only ever replaced by the one a successful transition ends in. -/
namespace Lifecycle

structure Instance where
  id : ObjectId
  schema : Schema
  /-- The active fetch plan. -/
  plan : FetchPlan
  cache : Cache
  state : State
  /-- The instance takes part in the current transaction. -/
  enlisted : Bool
  /-- The instance is managed; an instance that became a plain value is not. -/
  connected : Bool
  deriving DecidableEq

namespace Instance

def create (id : ObjectId) (schema : Schema) (values : List Value) : Except Failure Instance :=
  if values.length = schema.fieldCount then
    .ok ⟨id, schema, .standard, .ofValues values, .transient, false, true⟩
  else
    .error (.invalidMetadata schema.name
      ("expected " ++ toString schema.fieldCount ++ " field values, got "
        ++ toString values.length))

/-- A stored instance of which only the primary key is loaded. -/
def hollow (store : Store) (id : ObjectId) (schema : Schema) : Except Failure Instance :=
  (store.fetch id).map fun row =>
    ⟨id, schema, .standard,
      (Cache.unloaded schema.fieldCount).load (fun n _ => schema.isPrimaryKey n) row,
      .hollow, false, true⟩

/-- Loads the selected fields. The row is looked up first, and only if a field is selected. -/
def load (store : Store) (selected : Nat → Slot → Bool) (o : Instance) :
    Except Failure Instance :=
  if o.cache.fieldsWhere selected = [] then .ok o
  else (store.fetch o.id).map fun row => { o with cache := o.cache.load selected row }

/-- Carries out one effect. Only a load can fail, and then nothing has changed. -/
def perform (store : Store) (e : Effect) (o : Instance) : Except Failure Instance :=
  match e with
  | .saveFields => .ok { o with cache := o.cache.save }
  | .restoreFields => .ok { o with cache := o.cache.restore }
  | .clearSavedFields => .ok { o with cache := o.cache.clearSaved }
  | .clearNonPrimaryKeyFields =>
    .ok { o with cache := o.cache.unload fun n => !o.schema.isPrimaryKey n }
  | .clearLoadedFlags =>
    .ok { o with cache := o.cache.markUnloaded fun n => !o.schema.isPrimaryKey n }
  | .unloadNonFetchPlanFields =>
    .ok { o with cache := o.cache.unload fun n => !o.schema.selects o.plan n }
  | .loadUnloadedFields => o.load store fun _ s => !s.loaded
  | .loadUnloadedFieldsInFetchPlan =>
    o.load store fun n s => o.schema.selects o.plan n && !s.loaded
  | .loadUnloadedFieldsInPlan plan =>
    o.load store fun n s => o.schema.selects plan n && !s.loaded
  | .refreshLoadedFields => o.load store fun _ s => s.loaded
  | .refreshFieldsInFetchPlan => o.load store fun n _ => o.schema.selects o.plan n
  | .enlist => .ok { o with enlisted := true }
  | .evict => .ok { o with enlisted := false }
  | .disconnect => .ok { o with cache := o.cache.markAllLoaded, connected := false }

/-- Carries out effects in order, up to the first that fails. -/
def performAll (store : Store) : List Effect → Instance → Outcome Instance Unit
  | [], o => .done o ()
  | e :: rest, o =>
    match o.perform store e with
    | .ok o' => performAll store rest o'
    | .error f => .failed o f

def apply (tx : Transaction) (store : Store) (r : Request) (o : Instance) :
    Outcome Instance State :=
  match transition tx o.schema.identity r o.state with
  | .error refusal => .failed o (refusal.failure o.id o.state r.operation)
  | .ok move =>
    (performAll store move.effects o).andThen fun o' _ =>
      .done { o' with state := move.next } move.next

def inspect (o : Instance) : String :=
  Text.Inspect.openRecord "StateManager"
    [("id", o.id.inspect), ("class", Text.quoted o.schema.name), ("state", o.state.inspect),
      ("enlisted", Text.Inspect.flag o.enlisted), ("connected", Text.Inspect.flag o.connected)]

end Instance

end Lifecycle
