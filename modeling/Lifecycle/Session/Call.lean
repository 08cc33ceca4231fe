import Lifecycle.Instance.Call
import Lifecycle.Session

/-! Everything that can be asked of a session, as data, and runs of such calls. -/
namespace Lifecycle

/-- A session with what it draws on: the store and the supply of identities. -/
structure World where
  store : Store
  ids : IdSource
  session : Session

namespace Session

inductive Call where
  | begin
  | commit
  | rollback
  | persist (schema : Schema) (values : List Value)
  | find (schema : Schema) (id : ObjectId)
  | evictAll
  | object (id : ObjectId) (c : Instance.Call)
  /-- The transaction alone is begun; no instance is told. -/
  | beginTransaction
  /-- The transaction alone is finished. -/
  | finishTransaction

end Session

namespace World

def pair (w : World) : Store × Session :=
  (w.store, w.session)

def withPair (w : World) (p : Store × Session) : World :=
  { w with store := p.1, session := p.2 }

def onTransaction (w : World) (change : Transaction → Except Failure Transaction) :
    Outcome World Answer :=
  match change w.session.tx with
  | .ok tx => .done { w with session := { w.session with tx } } (.cycle tx.current)
  | .error f => .failed w f

def onObject (w : World) (id : ObjectId) (c : Instance.Call) : Outcome World Answer :=
  match w.session.object id with
  | .error f => .failed w f
  | .ok o =>
    (o.call w.session.tx c w.store).within fun (store, o') =>
      { w with store, session := w.session.manage o' }

/-- Carries a call out. An identity is drawn only if an instance was created. -/
def call (c : Session.Call) (w : World) : Outcome World Answer :=
  match c with
  | .begin => ((Session.begin w.pair).map .cycle).within w.withPair
  | .commit => ((Session.commit w.pair).map .cycle).within w.withPair
  | .rollback => ((Session.rollback w.pair).map .cycle).within w.withPair
  | .persist schema values =>
    match Session.persist w.ids.peek schema values w.pair with
    | ⟨p, .ok id⟩ => .done { w.withPair p with ids := w.ids.advance } (.object id)
    | ⟨p, .error f⟩ => .failed (w.withPair p) f
  | .find schema id => ((Session.find schema id w.pair).map .object).within w.withPair
  | .evictAll => ((Session.evictAll w.pair).map fun _ => .done).within w.withPair
  | .object id c => w.onObject id c
  | .beginTransaction => w.onTransaction Transaction.begin
  | .finishTransaction => w.onTransaction Transaction.finish

def run (cs : List Session.Call) (w : World) : World :=
  cs.foldl (fun w c => (w.call c).after) w

end World

end Lifecycle
