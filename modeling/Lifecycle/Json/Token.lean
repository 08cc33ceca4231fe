import Lifecycle.Decimal.Digits
import Lifecycle.Json

/-! The tokens of a JSON text, read one character at a time. -/
namespace Lifecycle.Json

inductive Token where
  | openArray
  | closeArray
  | openObject
  | closeObject
  | comma
  | colon
  | null
  | bool (b : Bool)
  | number (literal : List Char)
  | string (text : Option String)

namespace Token

inductive NumberPart where
  | minus
  | zero
  | whole
  | point
  | fraction
  | exponentMark
  | exponentSign
  | exponent

namespace NumberPart

def next? (p : NumberPart) (c : Char) : Option NumberPart :=
  if Decimal.isDigit c then
    match p with
    | minus => some (if c = '0' then zero else whole)
    | zero => none
    | whole => some whole
    | point | fraction => some fraction
    | exponentMark | exponentSign | exponent => some exponent
  else
    match p with
    | zero | whole =>
      if c = '.' then some point else if c = 'e' ∨ c = 'E' then some exponentMark else none
    | fraction => if c = 'e' ∨ c = 'E' then some exponentMark else none
    | exponentMark => if c = '+' ∨ c = '-' then some exponentSign else none
    | minus | point | exponentSign | exponent => none

def isComplete : NumberPart → Bool
  | zero | whole | fraction | exponent => true
  | minus | point | exponentMark | exponentSign => false

end NumberPart

inductive StringPart where
  | plain
  | escape
  /-- Some hexadecimal digits are still to come. -/
  | code (missing : Nat) (soFar : Nat)

/-- What the reader is in the middle of. Strings are gathered as code units, last first. -/
inductive Mode where
  | between
  | word (rest : List Char) (token : Token)
  | number (part : NumberPart) (reversed : List Char)
  | string (part : StringPart) (reversed : List Nat)
  | broken

structure Reader where
  mode : Mode
  reversed : List Token

def hexValue? (c : Char) : Option Nat :=
  if '0' ≤ c ∧ c ≤ '9' then some (c.toNat - '0'.toNat)
  else if 'a' ≤ c ∧ c ≤ 'f' then some (c.toNat - 'a'.toNat + 10)
  else if 'A' ≤ c ∧ c ≤ 'F' then some (c.toNat - 'A'.toNat + 10)
  else none

def isHigh (n : Nat) : Bool := 0xd800 ≤ n && n < 0xdc00
def isLow (n : Nat) : Bool := 0xdc00 ≤ n && n < 0xe000

/-- Joins surrogate pairs; half a pair makes no text. -/
def ofUnits? : List Nat → Option (List Char)
  | [] => some []
  | high :: low :: rest =>
    if isHigh high then
      if isLow low then
        (ofUnits? rest).map (Char.ofNat (0x10000 + (high - 0xd800) * 0x400 + (low - 0xdc00)) :: ·)
      else none
    else if isLow high then none
    else (ofUnits? (low :: rest)).map (Char.ofNat high :: ·)
  | [unit] => if isHigh unit ∨ isLow unit then none else some [Char.ofNat unit]

namespace Reader

def start : Reader := ⟨.between, []⟩

def emit (r : Reader) (t : Token) : Reader :=
  ⟨.between, t :: r.reversed⟩

def outside (r : Reader) (c : Char) : Reader :=
  match c with
  | ' ' | '\t' | '\n' | '\r' => { r with mode := .between }
  | '[' => r.emit .openArray
  | ']' => r.emit .closeArray
  | '\x7b' => r.emit .openObject
  | '\x7d' => r.emit .closeObject
  | ',' => r.emit .comma
  | ':' => r.emit .colon
  | '"' => { r with mode := .string .plain [] }
  | '-' => { r with mode := .number .minus ['-'] }
  | 'n' => { r with mode := .word ['u', 'l', 'l'] .null }
  | 't' => { r with mode := .word ['r', 'u', 'e'] (.bool true) }
  | 'f' => { r with mode := .word ['a', 'l', 's', 'e'] (.bool false) }
  | c =>
    match NumberPart.minus.next? c with
    | some part => { r with mode := .number part [c] }
    | none => { r with mode := .broken }

def inString (r : Reader) (part : StringPart) (units : List Nat) (c : Char) : Reader :=
  let plainly (unit : Nat) : Reader := { r with mode := .string .plain (unit :: units) }
  match part with
  | .plain =>
    match c with
    | '"' => r.emit (.string ((ofUnits? units.reverse).map String.ofList))
    | '\\' => { r with mode := .string .escape units }
    | c => if c < ' ' then { r with mode := .broken } else plainly c.toNat
  | .escape =>
    match c with
    | '"' | '\\' | '/' => plainly c.toNat
    | 'b' => plainly 0x08
    | 'f' => plainly 0x0c
    | 'n' => plainly 0x0a
    | 'r' => plainly 0x0d
    | 't' => plainly 0x09
    | 'u' => { r with mode := .string (.code 4 0) units }
    | _ => { r with mode := .broken }
  | .code missing soFar =>
    match hexValue? c with
    | none => { r with mode := .broken }
    | some d =>
      if missing ≤ 1 then plainly (16 * soFar + d)
      else { r with mode := .string (.code (missing - 1) (16 * soFar + d)) units }

/-- One more character. A number ends before the first character that does not continue it. -/
def step (r : Reader) (c : Char) : Reader :=
  match r.mode with
  | .between => r.outside c
  | .word [] _ => { r with mode := .broken }
  | .word [x] t => if c = x then r.emit t else { r with mode := .broken }
  | .word (x :: rest) t => { r with mode := if c = x then .word rest t else .broken }
  | .number part literal =>
    match part.next? c with
    | some part' => { r with mode := .number part' (c :: literal) }
    | none =>
      if part.isComplete then (r.emit (.number literal.reverse)).outside c
      else { r with mode := .broken }
  | .string part units => r.inString part units c
  | .broken => r

def finish (r : Reader) : Option (List Token) :=
  match r.mode with
  | .between => some r.reversed.reverse
  | .number part literal =>
    if part.isComplete then some (.number literal.reverse :: r.reversed).reverse else none
  | _ => none

end Reader

def scan? (cs : List Char) : Option (List Token) :=
  (cs.foldl Reader.step .start).finish

end Token

end Lifecycle.Json
