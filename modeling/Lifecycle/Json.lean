import Lifecycle.Text.Inspect

/-! JSON texts as data, and how they are written: on one line, or indented by two blanks a level. -/
namespace Lifecycle

/-- Numbers are kept as they are spelled. A string that holds half of a surrogate pair is no text:
it is kept as `none`, since it may stand where nothing is read. -/
inductive Json where
  | null
  | bool (b : Bool)
  | number (literal : List Char)
  | string (text : Option String)
  | array (items : List Json)
  | object (entries : List (Option String × Json))

namespace Json

instance : Inhabited Json := ⟨null⟩

def text (s : String) : Json :=
  string (some s)

def texts (ss : List String) : Json :=
  array (ss.map text)

def record (entries : List (String × Json)) : Json :=
  object (entries.map fun (key, v) => (some key, v))

end Json

end Lifecycle

namespace Lifecycle.Json

/-- Quotation marks, backslashes and control characters are escaped, nothing else. -/
def escape (c : Char) : List Char :=
  match c with
  | '"' => ['\\', '"']
  | '\\' => ['\\', '\\']
  | '\n' => ['\\', 'n']
  | '\r' => ['\\', 'r']
  | '\t' => ['\\', 't']
  | '\x08' => ['\\', 'b']
  | '\x0c' => ['\\', 'f']
  | c => if c < ' ' then '\\' :: 'u' :: Text.hexDigits 4 c.toNat else [c]

def quoted (s : String) : List Char :=
  '"' :: s.toList.flatMap escape ++ ['"']

/-- What is no text is written as the empty one. -/
def quoted? (s : Option String) : List Char :=
  quoted (s.getD "")

def word (s : String) : List Char :=
  s.toList

mutual

def compactChars : Json → List Char
  | null => word "null"
  | bool true => word "true"
  | bool false => word "false"
  | number literal => literal
  | string s => quoted? s
  | array [] => ['[', ']']
  | array (v :: rest) => '[' :: v.compactChars ++ compactItems rest
  | object [] => ['\x7b', '\x7d']
  | object ((key, v) :: rest) =>
    '\x7b' :: quoted? key ++ ':' :: v.compactChars ++ compactEntries rest

def compactItems : List Json → List Char
  | [] => [']']
  | v :: rest => ',' :: v.compactChars ++ compactItems rest

def compactEntries : List (Option String × Json) → List Char
  | [] => ['\x7d']
  | (key, v) :: rest => ',' :: quoted? key ++ ':' :: v.compactChars ++ compactEntries rest

end

def compact (v : Json) : String :=
  String.ofList v.compactChars

def newline (depth : Nat) : List Char :=
  '\n' :: List.replicate (2 * depth) ' '

mutual

def prettyChars (depth : Nat) : Json → List Char
  | null => word "null"
  | bool true => word "true"
  | bool false => word "false"
  | number literal => literal
  | string s => quoted? s
  | array [] => ['[', ']']
  | array (v :: rest) =>
    '[' :: newline (depth + 1) ++ v.prettyChars (depth + 1) ++ prettyItems depth rest
  | object [] => ['\x7b', '\x7d']
  | object ((key, v) :: rest) =>
    '\x7b' :: newline (depth + 1) ++ quoted? key ++ ':' :: ' ' :: v.prettyChars (depth + 1)
      ++ prettyEntries depth rest

def prettyItems (depth : Nat) : List Json → List Char
  | [] => newline depth ++ [']']
  | v :: rest =>
    ',' :: newline (depth + 1) ++ v.prettyChars (depth + 1) ++ prettyItems depth rest

def prettyEntries (depth : Nat) : List (Option String × Json) → List Char
  | [] => newline depth ++ ['\x7d']
  | (key, v) :: rest =>
    ',' :: newline (depth + 1) ++ quoted? key ++ ':' :: ' ' :: v.prettyChars (depth + 1)
      ++ prettyEntries depth rest

end

def pretty (v : Json) : String :=
  String.ofList (v.prettyChars 0)

end Lifecycle.Json
