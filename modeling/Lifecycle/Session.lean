import Lifecycle.Instance.Access

/-! A session: one transaction and the instances it manages, in the order of their identities.
Commit, rollback and eviction visit the instances in that order and stop at the first failure. -/
namespace Lifecycle

structure Session where
  tx : Transaction
  objects : List Instance
  deriving DecidableEq

/-- Does something to each instance in turn, and to the store. A failure stops it; what was done
before stays done, and the instances after it are left alone. -/
def sweep (visit : Store → Instance → Outcome (Store × Instance) Unit) :
    Store → List Instance → Outcome (Store × List Instance) Unit
  | store, [] => .done (store, []) ()
  | store, o :: rest =>
    match visit store o with
    | ⟨(store', o'), .ok ()⟩ => (sweep visit store' rest).within fun (s, os) => (s, o' :: os)
    | ⟨(store', o'), .error f⟩ => .failed (store', o' :: rest) f

namespace Session

def start (options : Options) : Session :=
  ⟨.inactive options, []⟩

def object? (s : Session) (id : ObjectId) : Option Instance :=
  ById.find? Instance.id id s.objects

/-- Manages an instance, instead of the one with the same identity if there is one. -/
def manage (s : Session) (o : Instance) : Session :=
  { s with objects := ById.insert Instance.id o s.objects }

def ids (s : Session) : List ObjectId :=
  s.objects.map (·.id)

def sweepWhere (p : Instance → Bool)
    (visit : Store → Instance → Outcome (Store × Instance) Unit)
    (w : Store × Session) : Outcome (Store × Session) Unit :=
  (sweep (fun store o => if p o then visit store o else .done (store, o) ()) w.1 w.2.objects).within
    fun (store, objects) => (store, { w.2 with objects })

def applying (tx : Transaction) (r : Request) (store : Store) (o : Instance) :
    Outcome (Store × Instance) Unit :=
  ((o.apply tx store r).map fun _ => ()).within (store, ·)

/-- A visit by which a surviving instance is detached with its fetch plan loaded. Its changes are
written already. -/
def detaching (tx : Transaction) (store : Store) (o : Instance) :
    Outcome (Store × Instance) Unit :=
  (applying tx (.retrieve true) store o).andThen fun (store, o) _ => applying tx .detach store o

def finish (w : Store × Session) : Outcome (Store × Session) UInt64 :=
  match w.2.tx.finish with
  | .ok tx => .done (w.1, { w.2 with tx }) tx.current
  | .error f => .failed w f

def ifActive {α : Type} (w : Store × Session) (go : Outcome (Store × Session) α) :
    Outcome (Store × Session) α :=
  if w.2.tx.active then go else .failed w .transactionNotActive

def begin (w : Store × Session) : Outcome (Store × Session) UInt64 :=
  match w.2.tx.begin with
  | .error f => .failed w f
  | .ok tx =>
    (sweepWhere (fun _ => true) (applying tx .begin) (w.1, { w.2 with tx })).map fun _ => tx.current

/-- Commits the transaction: writes the changes of the enlisted instances, detaches everything if
the options say so, and ends the transaction for the instances that are still enlisted. After a
failure the transaction is still open. -/
def commit (w : Store × Session) : Outcome (Store × Session) UInt64 :=
  let tx := w.2.tx
  ifActive w <|
    (sweepWhere (·.enlisted) (fun store o => o.flush store) w).andThen fun w _ =>
      (if tx.options.detachAllOnCommit then
        sweepWhere (fun o => o.state.isPersistent && !o.state.isDeleted) (detaching tx) w
      else .done w ()).andThen fun w _ =>
        (sweepWhere (·.enlisted) (applying tx .commit) w).andThen fun w _ => finish w

def rollback (w : Store × Session) : Outcome (Store × Session) UInt64 :=
  let tx := w.2.tx
  ifActive w <|
    (sweepWhere (·.enlisted) (applying tx .rollback) w).andThen fun w _ => finish w

def evictAll (w : Store × Session) : Outcome (Store × Session) Unit :=
  sweepWhere (fun o => o.state.isPersistent && !o.state.isDirty) (applying w.2.tx .evict) w

def persist (id : ObjectId) (schema : Schema) (values : List Value) (w : Store × Session) :
    Outcome (Store × Session) ObjectId :=
  match Instance.create id schema values with
  | .error f => .failed w f
  | .ok o =>
    let made := o.apply w.2.tx w.1 .makePersistent
    match made.answer with
    | .error f => .failed w f
    | .ok _ => .done (w.1, w.2.manage made.after) id

/-- Manages a stored instance without loading it. One that is managed already stays as it is. -/
def find (schema : Schema) (id : ObjectId) (w : Store × Session) :
    Outcome (Store × Session) ObjectId :=
  match w.2.object? id with
  | some _ => .done w id
  | none =>
    match Instance.hollow w.1 id schema with
    | .ok o => .done (w.1, w.2.manage o) id
    | .error f => .failed w f

def object (s : Session) (id : ObjectId) : Except Failure Instance :=
  match s.object? id with
  | some o => .ok o
  | none => .error (.objectNotFound id)

def inspect (s : Session) : String :=
  Text.Inspect.openRecord "Session"
    [("tx", s.tx.inspect),
      ("objects", Text.Inspect.map (s.objects.map fun o => (o.id.inspect, o.inspect)))]

end Session

end Lifecycle
