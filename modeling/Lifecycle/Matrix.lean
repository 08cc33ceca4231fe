import Lifecycle.Json.Schema
import Lifecycle.Scenario.Step
import Lifecycle.Text.Inspect
import Lifecycle.Transition

/-! Tables of the states and their flags, and of what every operation does in every state. -/
namespace Lifecycle.StateTable

def flags (s : State) : List (String × Bool) :=
  [("persistent", s.isPersistent), ("transactional", s.isTransactional), ("dirty", s.isDirty),
    ("new", s.isNew), ("deleted", s.isDeleted)]

def inspect (s : State) : String :=
  Text.Inspect.openRecord "LifecycleState"
    (("state_type", s.inspect) :: (flags s).map fun (name, flag) => (name, Text.Inspect.flag flag))

def toJson : Json :=
  .array (State.all.map fun s =>
    .record (("state", s.toJson) :: (flags s).map fun (name, flag) => (name, .bool flag)))

def row (first : String) (cells : List (String × String)) : String :=
  " ".intercalate
    (Text.padEnd 17 first :: cells.map fun (heading, cell) => Text.padStart heading.length cell)

def mark (flag : Bool) : String :=
  if flag then "x" else "-"

def lines : List String :=
  row "STATE" ((flags .transient).map fun (name, _) => (name, name)) ::
    State.all.map fun s => row s.code ((flags s).map fun (name, flag) => (name, mark flag))

end Lifecycle.StateTable

namespace Lifecycle

structure Cell where
  source : State
  operation : Operation
  result : Except Failure State
  calls : List Effect

namespace Cell

/-- Applies an operation with plain arguments to a stand-in for a sample instance. -/
def compute (object : ObjectId) (options : Options) (active : Bool) (source : State)
    (operation : Operation) : Cell :=
  let tx : Transaction := if active then .opened options else .inactive options
  let recorder : Recorder := ⟨object, Scenario.sampleSchema, tx, false, []⟩
  let o := recorder.apply (.plain options.detachAllOnCommit operation) source
  ⟨source, operation, o.answer, o.after.calls⟩

def toJson (c : Cell) : Json :=
  .record
    ([("from", c.source.toJson), ("operation", c.operation.toJson),
      match c.result with
      | .ok target => ("to", target.toJson)
      | .error f => ("error", .text f.label),
      ("calls", .array (c.calls.map (·.toJson)))])

def outcome (c : Cell) : String :=
  match c.result with
  | .ok target => target.code
  | .error f => "error: " ++ f.label

def line (withCalls : Bool) (c : Cell) : String :=
  let start := "  " ++ Text.padEnd 22 c.operation.name ++ " -> "
  if withCalls ∧ c.calls ≠ [] then
    start ++ Text.padEnd 18 c.outcome ++ " [" ++ ", ".intercalate (c.calls.map (·.text)) ++ "]"
  else start ++ c.outcome

end Cell

structure Matrix where
  options : Options
  active : Bool
  cells : List Cell

namespace Matrix

def compute (options : Options) (active : Bool) (ids : IdSource) : Matrix :=
  ⟨options, active,
    State.all.flatMap fun source =>
      Operation.all.map (Cell.compute ids.peek options active source)⟩

def cellsFrom (m : Matrix) (source : State) : List Cell :=
  m.cells.filter fun c => c.source = source

def toJson (m : Matrix) : Json :=
  .record
    [("options", m.options.toJson), ("active", .bool m.active),
      ("cells", .array (m.cells.map (·.toJson)))]

def lines (withCalls : Bool) (m : Matrix) : List String :=
  let heading := "Transaction: " ++ (if m.active then "active" else "inactive") ++ " ("
    ++ (if m.options.optimistic then "optimistic" else "pessimistic") ++ ")"
  heading :: State.all.flatMap fun source =>
    "" :: source.code :: (m.cellsFrom source).map (Cell.line withCalls)

end Matrix

end Lifecycle
