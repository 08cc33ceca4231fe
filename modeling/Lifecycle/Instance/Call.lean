import Lifecycle.Instance.Access

/-! Everything that can be asked of a managed instance, as data. -/
namespace Lifecycle

inductive Answer where
  | done
  | state (s : State)
  | value (v : Value)
  | groups (names : List String)
  | cycle (n : UInt64)
  | object (id : ObjectId)

inductive FieldRef where
  | number (n : Nat)
  | name (s : String)

def FieldRef.resolve (schema : Schema) : FieldRef → Except Failure Nat
  | number n => .ok n
  | name s => schema.requireField s

namespace Instance

inductive Call where
  | makePersistent
  | deletePersistent
  | makeTransactional (refreshFields : Bool)
  | makeNontransactional
  | makeTransient (useFetchPlan : Bool)
  | refresh
  | evict
  | retrieve (fetchPlanOnly : Bool)
  | retrieveWith (plan : FetchPlan)
  | detach
  | attach
  | serialize
  | read (field : FieldRef)
  | write (field : FieldRef) (v : Value)
  | flush
  | setPlan (plan : FetchPlan)
  /-- A bare transition. -/
  | apply (r : Request)
  /-- A bare effect. -/
  | perform (e : Effect)

def withField {α : Type} (field : FieldRef) (o : Instance) (go : Nat → Outcome Instance α) :
    Outcome Instance α :=
  match field.resolve o.schema with
  | .ok n => go n
  | .error f => .failed o f

/-- Carries a call out. Only flushing and detaching can change the store. -/
def call (tx : Transaction) (c : Call) (store : Store) (o : Instance) :
    Outcome (Store × Instance) Answer :=
  let plain (r : Request) : Outcome (Store × Instance) Answer :=
    ((o.apply tx store r).map .state).within (store, ·)
  match c with
  | .makePersistent => plain .makePersistent
  | .deletePersistent => plain .deletePersistent
  | .makeTransactional refreshFields => plain (.makeTransactional refreshFields)
  | .makeNontransactional => plain .makeNontransactional
  | .makeTransient useFetchPlan =>
    plain (.makeTransient useFetchPlan tx.options.detachAllOnCommit)
  | .refresh => plain .refresh
  | .evict => plain .evict
  | .retrieve fetchPlanOnly => plain (.retrieve fetchPlanOnly)
  | .retrieveWith plan => plain (.retrieveWith plan)
  | .detach => (o.detach tx store).map .state
  | .attach => plain .attach
  | .serialize => plain .serialize
  | .read field =>
    ((o.withField field fun n => o.readField tx store n).map .value).within (store, ·)
  | .write field v =>
    ((o.withField field fun n => o.writeField tx store n v).map fun _ => .done).within (store, ·)
  | .flush => (o.flush store).map fun _ => .done
  | .setPlan plan => .done (store, { o with plan }) (.groups plan.groups)
  | .apply r => plain r
  | .perform e =>
    ((Outcome.change o (o.perform store e)).map fun _ => .done).within (store, ·)

end Instance

end Lifecycle
