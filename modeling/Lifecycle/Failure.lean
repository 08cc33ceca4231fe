import Lifecycle.ObjectId
import Lifecycle.Operation
import Lifecycle.State
import Lifecycle.Text.Inspect

/-! Everything that can go wrong with an instance, a session or the store, and how it is told. -/
namespace Lifecycle

inductive Failure where
  | illegalTransition (object : ObjectId) (state : State) (operation : Operation)
  | notReadable (object : ObjectId) (state : State) (reason : String)
  | notWritable (object : ObjectId) (state : State) (reason : String)
  | invalidOperation (object : ObjectId) (state : State) (operation : Operation) (reason : String)
  | objectNotFound (object : ObjectId)
  | duplicateObject (object : ObjectId)
  | unknownField (schema : String) (field : String)
  | invalidMetadata (schema : String) (reason : String)
  | transactionNotActive
  | transactionAlreadyActive
  deriving DecidableEq

namespace Failure

def message : Failure → String
  | illegalTransition object state operation =>
    "illegal state transition: cannot " ++ operation.phrase ++ " " ++ object.text ++ " in state "
      ++ state.code
  | notReadable object state reason =>
    "fields of " ++ object.text ++ " are not readable in state " ++ state.code ++ ": " ++ reason
  | notWritable object state reason =>
    "fields of " ++ object.text ++ " are not writable in state " ++ state.code ++ ": " ++ reason
  | invalidOperation object state operation reason =>
    "cannot " ++ operation.phrase ++ " " ++ object.text ++ " in state " ++ state.code ++ ": "
      ++ reason
  | objectNotFound object => "object not found in datastore: " ++ object.text
  | duplicateObject object => "object already exists in datastore: " ++ object.text
  | unknownField schema field => "class " ++ schema ++ " has no field " ++ field
  | invalidMetadata schema reason => "invalid metadata for class " ++ schema ++ ": " ++ reason
  | transactionNotActive => "transaction is not active"
  | transactionAlreadyActive => "transaction is already active"

/-- The failure in two words, without the object it happened to. -/
def label : Failure → String
  | illegalTransition .. => "illegal"
  | notReadable .. => "not readable"
  | notWritable .. => "not writable"
  | invalidOperation .. => "invalid"
  | objectNotFound .. => "not found"
  | duplicateObject .. => "duplicate"
  | unknownField .. => "unknown field"
  | invalidMetadata .. => "bad metadata"
  | transactionNotActive => "no transaction"
  | transactionAlreadyActive => "transaction active"

def isAccessViolation : Failure → Bool
  | notReadable .. | notWritable .. => true
  | _ => false

def state? : Failure → Option State
  | illegalTransition _ state _ | notReadable _ state _ | notWritable _ state _
  | invalidOperation _ state _ _ => some state
  | _ => none

def kind : Failure → String
  | illegalTransition .. => "IllegalTransition"
  | notReadable .. => "NotReadable"
  | notWritable .. => "NotWritable"
  | invalidOperation .. => "InvalidOperation"
  | objectNotFound .. => "ObjectNotFound"
  | duplicateObject .. => "DuplicateObject"
  | unknownField .. => "UnknownField"
  | invalidMetadata .. => "InvalidMetadata"
  | transactionNotActive => "TransactionNotActive"
  | transactionAlreadyActive => "TransactionAlreadyActive"

def details : Failure → List (String × String)
  | illegalTransition object state operation =>
    [("object", object.inspect), ("state", state.inspect), ("operation", operation.inspect)]
  | notReadable object state reason | notWritable object state reason =>
    [("object", object.inspect), ("state", state.inspect), ("reason", Text.quoted reason)]
  | invalidOperation object state operation reason =>
    [("object", object.inspect), ("state", state.inspect), ("operation", operation.inspect),
      ("reason", Text.quoted reason)]
  | objectNotFound object | duplicateObject object => [("object", object.inspect)]
  | unknownField schema field => [("class", Text.quoted schema), ("field", Text.quoted field)]
  | invalidMetadata schema reason =>
    [("class", Text.quoted schema), ("message", Text.quoted reason)]
  | transactionNotActive | transactionAlreadyActive => []

def inspect (f : Failure) : String :=
  match f.details with
  | [] => f.kind
  | fields => Text.Inspect.record f.kind fields

end Failure

end Lifecycle
