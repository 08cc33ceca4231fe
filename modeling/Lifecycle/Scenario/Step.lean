import Lifecycle.Operation
import Lifecycle.Schema
import Lifecycle.Value

/-! A scenario: the sample class, and the steps that say what is done next with its one object. -/
namespace Lifecycle.Scenario

def sampleSchema : Schema where
  name := "Person"
  identity := .application
  fields := [.key "id", .plain "name", .plain "email", .onDemand "bio"]

def sampleValues (key : Int64) : List Value :=
  let name := "person-" ++ Value.integerText key
  [.integer key, .text name, .text (name ++ "@example.com"), .null]

inductive Step where
  | begin
  | commit
  | rollback
  /-- Make a new object persistent, or the one there is. -/
  | persist
  /-- Store a row and manage it. -/
  | find
  | read (field : String)
  | write (field : String) (v : Value)
  /-- Load every field. -/
  | retrieveAll
  /-- Any other operation, with plain arguments. -/
  | apply (o : Operation)
  deriving DecidableEq

inductive StepError where
  | writeWithoutValue (given : String)
  | accessWithoutField (given : String)
  | name (e : NameError)
  deriving DecidableEq

def StepError.message : StepError → String
  | writeWithoutValue given =>
    "expected write:<field>=<value>, got " ++ Text.quoted given
  | accessWithoutField given =>
    Text.quoted given ++ " needs a field, use read:<field> or write:<field>=<value>"
  | name e => e.message

namespace Step

def digits? (ds : List Char) : Option Int :=
  if ds ≠ [] ∧ ds.all Decimal.isDigit then some (Decimal.value ds) else none

def integer? (raw : List Char) : Option Int :=
  match raw with
  | '+' :: ds => digits? ds
  | '-' :: ds => (digits? ds).map (-·)
  | ds => digits? ds

/-- The value that is written in a step. What is neither a keyword nor an integer that fits is a
text, as it stands. -/
def parseValue (raw : List Char) : Value :=
  if raw = "null".toList then .null
  else if raw = "true".toList then .bool true
  else if raw = "false".toList then .bool false
  else
    match integer? raw with
    | some n => (Value.ofInt? n).getD (.text (String.ofList raw))
    | none => .text (String.ofList raw)

def parseWord (s : String) : Except StepError Step :=
  if s = "persist" then .ok persist
  else if s = "find" then .ok find
  else if s = "retrieve-all" then .ok retrieveAll
  else
    match Operation.parse s with
    | .ok .begin => .ok begin
    | .ok .commit => .ok commit
    | .ok .rollback => .ok rollback
    | .ok .readField | .ok .writeField => .error (.accessWithoutField s)
    | .ok o => .ok (apply o)
    | .error e => .error (.name e)

/-- What follows `write:`. The first equals sign ends the name of the field. -/
def parseWrite (whole : String) (rest : List Char) : Except StepError Step :=
  match rest.span (· ≠ '=') with
  | (field, _ :: raw) => .ok (write (String.ofList field) (parseValue raw))
  | (_, []) => .error (.writeWithoutValue whole)

def parse (s : String) : Except StepError Step :=
  let cs := Text.trim s.toList
  match "read:".toList.isPrefixOf? cs, "write:".toList.isPrefixOf? cs with
  | some field, _ => .ok (read (String.ofList field))
  | none, some rest => parseWrite (String.ofList cs) rest
  | none, none => parseWord (String.ofList cs)

def display : Step → String
  | begin => "begin"
  | commit => "commit"
  | rollback => "rollback"
  | persist => "persist"
  | find => "find"
  | read field => "read:" ++ field
  | write field v => "write:" ++ field ++ "=" ++ v.inspect
  | retrieveAll => "retrieve-all"
  | apply o => o.name

def inspect : Step → String
  | begin => "Begin"
  | commit => "Commit"
  | rollback => "Rollback"
  | persist => "Persist"
  | find => "Find"
  | read field => Text.Inspect.applied "Read" (Text.quoted field)
  | write field v => Text.Inspect.applied "Write" (Text.quoted field ++ ", " ++ v.inspect)
  | retrieveAll => "RetrieveAll"
  | apply o => Text.Inspect.applied "Apply" o.inspect

end Step

end Lifecycle.Scenario
