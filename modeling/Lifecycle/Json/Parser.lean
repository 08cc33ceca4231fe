import Lifecycle.Json.Token

/-! Reading JSON: tokens are taken one at a time, with the arrays and objects that are still open
kept on a stack. -/
namespace Lifecycle.Json

/-- An open array or object. What it holds so far is kept last first. -/
inductive Frame where
  | items (reversed : List Json)
  | entries (reversed : List (Option String × Json))
  /-- An object whose last key waits for its value. -/
  | entry (key : Option String) (reversed : List (Option String × Json))

inductive Expected where
  | value
  | valueOrClose
  | key
  | keyOrClose
  | colon
  | separator
  | finished (v : Json)
  | nothing

structure Machine where
  expected : Expected
  stack : List Frame

namespace Machine

def start : Machine := ⟨.value, []⟩

def broken : Machine := ⟨.nothing, []⟩

def put (v : Json) : List Frame → Machine
  | [] => ⟨.finished v, []⟩
  | .items vs :: rest => ⟨.separator, .items (v :: vs) :: rest⟩
  | .entry key es :: rest => ⟨.separator, .entries ((key, v) :: es) :: rest⟩
  | .entries _ :: _ => broken

def close (isArray : Bool) : List Frame → Machine
  | .items vs :: rest => if isArray then put (.array vs.reverse) rest else broken
  | .entries es :: rest => if isArray then broken else put (.object es.reverse) rest
  | _ => broken

def value (t : Token) (stack : List Frame) : Machine :=
  match t with
  | .null => put .null stack
  | .bool b => put (.bool b) stack
  | .number literal => put (.number literal) stack
  | .string s => put (.string s) stack
  | .openArray => ⟨.valueOrClose, .items [] :: stack⟩
  | .openObject => ⟨.keyOrClose, .entries [] :: stack⟩
  | _ => broken

def key (t : Token) (stack : List Frame) : Machine :=
  match t, stack with
  | .string s, .entries es :: rest => ⟨.colon, .entry s es :: rest⟩
  | _, _ => broken

def step (m : Machine) (t : Token) : Machine :=
  match m.expected, t with
  | .value, t => value t m.stack
  | .valueOrClose, .closeArray => close true m.stack
  | .valueOrClose, t => value t m.stack
  | .key, t => key t m.stack
  | .keyOrClose, .closeObject => close false m.stack
  | .keyOrClose, t => key t m.stack
  | .colon, .colon => ⟨.value, m.stack⟩
  | .separator, .closeArray => close true m.stack
  | .separator, .closeObject => close false m.stack
  | .separator, .comma =>
    match m.stack with
    | .items _ :: _ => ⟨.value, m.stack⟩
    | .entries _ :: _ => ⟨.key, m.stack⟩
    | _ => broken
  | _, _ => broken

end Machine

/-- The value that a sequence of tokens spells, if it spells one and nothing more. -/
def ofTokens? (ts : List Token) : Option Json :=
  match (ts.foldl Machine.step .start).expected with
  | .finished v => some v
  | _ => none

def parse? (s : String) : Option Json :=
  (Token.scan? s.toList).bind ofTokens?

end Lifecycle.Json
