import Lifecycle.Text.Character

/-! Texts for people: columns and fixed-width numbers, texts between quotation marks, and values as
a developer reads them. -/
namespace Lifecycle.Text

def padEnd (width : Nat) (s : String) : String :=
  s ++ String.ofList (List.replicate (width - s.length) ' ')

def padStart (width : Nat) (s : String) : String :=
  String.ofList (List.replicate (width - s.length) ' ') ++ s

/-- The last `width` digits of `n` in lower-case hexadecimal, leading zeros included. -/
def hexDigits : (width : Nat) → (n : Nat) → List Char
  | 0, _ => []
  | width + 1, n => hexDigits width (n / 16) ++ [Nat.digitChar (n % 16)]

def lines (ls : List String) : String :=
  String.join (ls.map (· ++ "\n"))

def codePointEscape (c : Char) : List Char :=
  "\\u\x7b".toList ++ Nat.toDigits 16 c.toNat ++ ['}']

/-- A character that extends the one before it is escaped even though it prints. -/
def escape (c : Char) : List Char :=
  match c with
  | '\x00' => ['\\', '0']
  | '\t' => ['\\', 't']
  | '\n' => ['\\', 'n']
  | '\r' => ['\\', 'r']
  | '"' => ['\\', '"']
  | '\\' => ['\\', '\\']
  | c => if isExtender c || isUnprintable c then codePointEscape c else [c]

def quoted (s : String) : String :=
  String.ofList ('"' :: s.toList.flatMap escape ++ ['"'])

end Lifecycle.Text

namespace Lifecycle.Text.Inspect

def parts (fields : List (String × String)) : String :=
  ", ".intercalate (fields.map fun (name, text) => name ++ ": " ++ text)

def record (name : String) (fields : List (String × String)) : String :=
  name ++ " \x7b " ++ parts fields ++ " \x7d"

def openRecord (name : String) (fields : List (String × String)) : String :=
  name ++ " \x7b " ++ parts fields ++ ", .. \x7d"

def applied (name : String) (argument : String) : String :=
  name ++ "(" ++ argument ++ ")"

def list (items : List String) : String :=
  "[" ++ ", ".intercalate items ++ "]"

def set (items : List String) : String :=
  "\x7b" ++ ", ".intercalate items ++ "\x7d"

def map (entries : List (String × String)) : String :=
  "\x7b" ++ parts entries ++ "\x7d"

def flag (b : Bool) : String :=
  if b then "true" else "false"

end Lifecycle.Text.Inspect
