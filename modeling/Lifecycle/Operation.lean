import Lifecycle.Text.Character

/-! The sixteen lifecycle operations, by which requests are named and refusals reported. The names
of states and operations are read alike: blanks around them are dropped, case is folded for ASCII
letters only, and separators are made equal. -/
namespace Lifecycle

/-- A name that nothing carries, as it was given. -/
inductive NameError where
  | state (given : String)
  | operation (given : String)
  deriving DecidableEq

def NameError.message : NameError → String
  | .state given => "unknown state: " ++ given
  | .operation given => "unknown operation: " ++ given

namespace Name

def constantCase (s : String) : String :=
  String.ofList ((Text.trim s.toList).map fun c => if c = '-' then '_' else c.toUpper)

def kebabCase (s : String) : String :=
  String.ofList ((Text.trim s.toList).map fun c => if c = '_' ∨ c = ' ' then '-' else c.toLower)

end Name

inductive Operation where
  | makePersistent
  | deletePersistent
  | makeTransactional
  | makeNontransactional
  | makeTransient
  | commit
  | rollback
  | refresh
  | evict
  | readField
  | writeField
  | retrieve
  | detach
  | attach
  | serialize
  | begin
  deriving DecidableEq

namespace Operation

def all : List Operation :=
  [makePersistent, deletePersistent, makeTransactional, makeNontransactional, makeTransient,
    commit, rollback, refresh, evict, readField, writeField, retrieve, detach, attach, serialize,
    begin]

def words : Operation → List String
  | makePersistent => ["make", "persistent"]
  | deletePersistent => ["delete", "persistent"]
  | makeTransactional => ["make", "transactional"]
  | makeNontransactional => ["make", "nontransactional"]
  | makeTransient => ["make", "transient"]
  | commit => ["commit"]
  | rollback => ["rollback"]
  | refresh => ["refresh"]
  | evict => ["evict"]
  | readField => ["read", "field"]
  | writeField => ["write", "field"]
  | retrieve => ["retrieve"]
  | detach => ["detach"]
  | attach => ["attach"]
  | serialize => ["serialize"]
  | begin => ["begin"]

def name (o : Operation) : String :=
  "-".intercalate o.words

def phrase (o : Operation) : String :=
  " ".intercalate o.words

def inspect (o : Operation) : String :=
  String.join (o.words.map String.capitalize)

def ofName? (s : String) : Option Operation :=
  all.find? (·.name == s)

/-- Reads a name as a user may type it: underscores and blanks stand for hyphens. -/
def parse (s : String) : Except NameError Operation :=
  match ofName? (Name.kebabCase s) with
  | some operation => .ok operation
  | none => .error (.operation s)

end Operation

end Lifecycle
