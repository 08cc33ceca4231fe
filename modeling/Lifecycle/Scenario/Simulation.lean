import Lifecycle.Json.Schema
import Lifecycle.Json.Value
import Lifecycle.Scenario.Step
import Lifecycle.Session.Call

/-! Running a scenario: a session over a store of its own, and one sample object at a time. Every
step is reported, as a line of text or in JSON. -/
namespace Lifecycle.Scenario

structure Simulation where
  world : World
  /-- The class of the sample objects. -/
  schema : Schema
  /-- The sample object, once there is one. -/
  object : Option ObjectId
  /-- The key of the next sample object. -/
  nextKey : Int64

inductive Trouble where
  | noObject
  | failure (f : Failure)

def Trouble.message : Trouble → String
  | noObject => "no sample object yet; start with persist or find"
  | failure f => f.label ++ ": " ++ f.message

namespace Simulation

/-- A new session, with its first transaction begun if `active`, and the sample class built. -/
def start (options : Options) (active : Bool) (ids : IdSource) : Except Failure Simulation := do
  let world : World := ⟨.empty, ids, .start options⟩
  let opened : Outcome World Answer := if active then world.call .begin else .done world .done
  let _ ← opened.answer
  let schema ← sampleSchema.build
  return ⟨opened.after, schema, none, 1⟩

def state? (s : Simulation) : Option State :=
  (s.object.bind s.world.session.object?).map (·.state)

def answered (s : Simulation) (o : Outcome World Answer) :
    Simulation × Except Trouble (Option Value) :=
  ({ s with world := o.after },
    match o.answer with
    | .ok (.value v) => .ok (some v)
    | .ok _ => .ok none
    | .error f => .error (.failure f))

def call (s : Simulation) (c : Session.Call) :
    Simulation × Except Trouble (Option Value) :=
  s.answered (s.world.call c)

def callObject (s : Simulation) (c : Instance.Call) :
    Simulation × Except Trouble (Option Value) :=
  match s.object with
  | some id => s.call (.object id c)
  | none => (s, .error .noObject)

def takeKey (s : Simulation) : Simulation :=
  { s with nextKey := s.nextKey + 1 }

def adopt (s : Simulation) (o : Outcome World Answer) :
    Simulation × Except Trouble (Option Value) :=
  match o.answer with
  | .ok (.object id) => ({ s with object := some id }).answered o
  | _ => s.answered o

def persistNew (s : Simulation) : Simulation × Except Trouble (Option Value) :=
  s.takeKey.adopt (s.world.call (.persist s.schema (sampleValues s.nextKey)))

def findNew (s : Simulation) : Simulation × Except Trouble (Option Value) :=
  let id := s.world.ids.peek
  let w := { s.world with ids := s.world.ids.advance }
  match w.store.insert id (sampleValues s.nextKey) with
  | .error f => (({ s with world := w }).takeKey, .error (.failure f))
  | .ok store => s.takeKey.adopt (({ w with store }).call (.find s.schema id))

/-- What an operation asks of the object. Fields are not read and written without a name. -/
def operationCall : Operation → Instance.Call
  | .makePersistent => .makePersistent
  | .deletePersistent => .deletePersistent
  | .makeTransactional => .makeTransactional false
  | .makeNontransactional => .makeNontransactional
  | .makeTransient => .makeTransient false
  | .refresh => .refresh
  | .evict => .evict
  | .retrieve => .retrieve true
  | .detach => .detach
  | .attach => .attach
  | .serialize => .serialize
  | .readField | .writeField => .read (.name "<none>")
  | .begin => .apply .begin
  | .commit => .apply .commit
  | .rollback => .apply .rollback

/-- Runs one step. Only a read answers a value. -/
def step (s : Simulation) (t : Step) : Simulation × Except Trouble (Option Value) :=
  match t with
  | .begin | .apply .begin => s.call .begin
  | .commit | .apply .commit => s.call .commit
  | .rollback | .apply .rollback => s.call .rollback
  | .persist =>
    match s.object with
    | some id => s.call (.object id .makePersistent)
    | none => s.persistNew
  | .find => s.findNew
  | .read field => s.callObject (.read (.name field))
  | .write field v => s.callObject (.write (.name field) v)
  | .retrieveAll => s.callObject (.retrieve false)
  | .apply o => s.callObject (operationCall o)

end Simulation

structure Report where
  step : String
  /-- The state of the sample object afterwards. -/
  state : Option State
  value : Option Value
  error : Option String

namespace Simulation

def report (s : Simulation) (t : Step) : Simulation × Report :=
  let (s', result) := s.step t
  match result with
  | .ok value => (s', ⟨t.display, s'.state?, value, none⟩)
  | .error trouble => (s', ⟨t.display, s'.state?, none, some trouble.message⟩)

end Simulation

structure Progress where
  simulation : Simulation
  reports : List Report
  failed : Bool

namespace Progress

/-- One more step. That a step has failed is not forgotten. -/
def next (p : Progress) (t : Step) : Progress :=
  let (s, r) := p.simulation.report t
  ⟨s, p.reports ++ [r], p.failed || r.error.isSome⟩

/-- One step after the other. The loop is left as soon as one has failed, unless told to keep
going. -/
def loop (keepGoing : Bool) : List Step → Progress → Progress
  | [], p => p
  | t :: rest, p =>
    let p' := p.next t
    if p'.failed && !keepGoing then p' else loop keepGoing rest p'

end Progress

def simulate (steps : List Step) (options : Options) (active keepGoing : Bool) (ids : IdSource) :
    Except Failure (List Report × Bool) := do
  let s ← Simulation.start options active ids
  let p := Progress.loop keepGoing steps ⟨s, [], false⟩
  return (p.reports, p.failed)

end Lifecycle.Scenario

namespace Lifecycle.Scenario.Report

/-- What is absent has no key. -/
def toJson (r : Report) : Json :=
  .record
    ([("step", .text r.step)] ++ (r.state.map fun s => ("state", s.toJson)).toList
      ++ (r.value.map fun v => ("value", v.toJson)).toList
      ++ (r.error.map fun e => ("error", .text e)).toList)

def line (n : Nat) (r : Report) : String :=
  Text.padStart 3 (toString n) ++ ". " ++ Text.padEnd 28 r.step ++ " "
    ++ Text.padEnd 17 (r.state.elim "-" (·.code))
    ++ r.value.elim "" (fun v => " = " ++ v.inspect)
    ++ r.error.elim "" (fun e => " ! " ++ e)

def lines (reports : List Report) : List String :=
  (reports.zipIdx 1).map fun (r, n) => r.line n

end Lifecycle.Scenario.Report
