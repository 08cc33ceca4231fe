/-! The grammar of arguments: switches by long name or letter, letters run together, values that
follow or are attached, and the word that chooses a command. -/
namespace Lifecycle.CommandLine

inductive SwitchKind where
  /-- It is on or off. -/
  | flag
  /-- It takes a value. -/
  | value
  /-- It takes a value that may not be empty. -/
  | path
  /-- It takes a value and may be given again. -/
  | list
  /-- It ends the reading of arguments with a request for help. -/
  | help
  /-- It ends the reading of arguments with a request for the version. -/
  | version
  deriving DecidableEq

structure Switch where
  name : String
  letter : Option Char
  kind : SwitchKind

namespace Switch

def takesValue (s : Switch) : Bool :=
  match s.kind with
  | .value | .path | .list => true
  | .flag | .help | .version => false

end Switch

structure Given where
  name : String
  value : String

inductive Stop where
  | usage
  | help
  | version
  deriving DecidableEq

structure Grammar where
  switches : List Switch
  commands : List String

structure Parsed where
  given : List Given
  command : Option (String × List String)

namespace Parsed

def has (p : Parsed) (name : String) : Bool :=
  p.given.any (·.name == name)

def values (p : Parsed) (name : String) : List String :=
  (p.given.filter (·.name == name)).map (·.value)

end Parsed

namespace Grammar

def byName? (g : Grammar) (name : String) : Option Switch :=
  g.switches.find? (·.name == name)

def byLetter? (g : Grammar) (letter : Char) : Option Switch :=
  g.switches.find? (·.letter == some letter)

def accept (s : Switch) (value : String) (given : List Given) : Except Stop (List Given) :=
  match s.kind with
  | .help => .error .help
  | .version => .error .version
  | .list => .ok (given ++ [⟨s.name, value⟩])
  | .path =>
    if value = "" ∨ given.any (·.name == s.name) then .error .usage
    else .ok (given ++ [⟨s.name, value⟩])
  | .flag | .value =>
    if given.any (·.name == s.name) then .error .usage else .ok (given ++ [⟨s.name, value⟩])

structure Progress where
  given : List Given
  waiting : Option Switch

def accepted (s : Switch) (value : String) (given : List Given) : Except Stop Progress :=
  (accept s value given).map (⟨·, none⟩)

def bare (s : Switch) (given : List Given) : Except Stop Progress :=
  if s.takesValue then .ok ⟨given, some s⟩ else accepted s "" given

/-- Letters behind one hyphen. The first that takes a value takes the rest, an equals sign
aside. -/
def letters (g : Grammar) : List Char → List Given → Except Stop Progress
  | [], given => .ok ⟨given, none⟩
  | c :: rest, given =>
    match g.byLetter? c with
    | none => .error .usage
    | some s =>
      if s.takesValue then
        match rest with
        | [] => .ok ⟨given, some s⟩
        | '=' :: value => accepted s (String.ofList value) given
        | value => accepted s (String.ofList value) given
      else
        match accept s "" given with
        | .ok given => letters g rest given
        | .error stop => .error stop

def long (g : Grammar) (cs : List Char) (given : List Given) : Except Stop Progress :=
  let (name, attached) := cs.span (· ≠ '=')
  match g.byName? (String.ofList name), attached with
  | none, _ => .error .usage
  | some s, [] => bare s given
  | some s, _ :: value =>
    if s.takesValue then accepted s (String.ofList value) given else .error .usage

/-- Reads arguments up to the word that chooses a command. A value may not look like a switch,
and after a lone `--` nothing may follow. -/
def read (g : Grammar) : List String → Progress → Except Stop Parsed
  | [], ⟨given, none⟩ => .ok ⟨given, none⟩
  | [], ⟨_, some _⟩ => .error .usage
  | arg :: rest, ⟨given, some s⟩ =>
    match arg.toList with
    | '-' :: _ :: _ => .error .usage
    | _ =>
      match accepted s arg given with
      | .ok progress => read g rest progress
      | .error stop => .error stop
  | arg :: rest, ⟨given, none⟩ =>
    if g.commands.contains arg then .ok ⟨given, some (arg, rest)⟩
    else
      match arg.toList with
      | ['-', '-'] => if rest.isEmpty then .ok ⟨given, none⟩ else .error .usage
      | '-' :: '-' :: cs =>
        match g.long cs given with
        | .ok progress => read g rest progress
        | .error stop => .error stop
      | '-' :: c :: cs =>
        match g.letters (c :: cs) given with
        | .ok progress => read g rest progress
        | .error stop => .error stop
      | _ => .error .usage

def parse (g : Grammar) (args : List String) : Except Stop Parsed :=
  g.read args ⟨[], none⟩

end Grammar

end Lifecycle.CommandLine
