import Lifecycle.CommandLine.Arguments
import Lifecycle.Transaction

/-! The commands and what their arguments mean. -/
namespace Lifecycle.CommandLine

inductive Format where
  | text
  | json
  deriving DecidableEq

/-- The transaction as the command line asks for it: options that are switched on, whether it is
active, and a file with more options. -/
structure TransactionRequest where
  options : Options
  active : Bool
  file : Option String

inductive Command where
  | states (format : Format)
  | matrix (tx : TransactionRequest) (calls : Bool) (format : Format)
  | simulate (steps : List String) (tx : TransactionRequest) (keepGoing : Bool) (format : Format)
  | version

namespace Command

def common : List Switch :=
  [⟨"verbose", some 'v', .flag⟩, ⟨"help", some 'h', .help⟩]

def formatSwitch : Switch := ⟨"format", some 'f', .value⟩

def transactionSwitches : List Switch :=
  [⟨"active", none, .flag⟩, ⟨"optimistic", none, .flag⟩, ⟨"nontx-read", none, .flag⟩,
    ⟨"nontx-write", none, .flag⟩, ⟨"retain-values", none, .flag⟩,
    ⟨"restore-values", none, .flag⟩, ⟨"detach-all-on-commit", none, .flag⟩,
    ⟨"options", none, .path⟩]

def topGrammar : Grammar :=
  ⟨⟨"version", some 'V', .version⟩ :: common, ["states", "matrix", "simulate", "version", "help"]⟩

def grammar (command : String) : Grammar :=
  match command with
  | "states" => ⟨formatSwitch :: common, []⟩
  | "matrix" => ⟨⟨"calls", some 'c', .flag⟩ :: formatSwitch :: transactionSwitches ++ common, []⟩
  | "simulate" =>
    ⟨⟨"ops", some 'o', .list⟩ :: ⟨"keep-going", some 'k', .flag⟩ :: formatSwitch ::
      transactionSwitches ++ common, []⟩
  | _ => ⟨common, []⟩

def format (p : Parsed) : Format :=
  if p.values "format" = ["json"] then .json else .text

def transaction (p : Parsed) : TransactionRequest where
  options :=
    { optimistic := p.has "optimistic"
      nontransactionalRead := p.has "nontx-read"
      nontransactionalWrite := p.has "nontx-write"
      retainValues := p.has "retain-values"
      restoreValues := p.has "restore-values"
      detachAllOnCommit := p.has "detach-all-on-commit" }
  active := p.has "active"
  file := (p.values "options").head?

def commaSeparated (s : String) : List String :=
  (s.toList.splitOn ',').map String.ofList

def ofParsed (command : String) (p : Parsed) : Except Stop Command :=
  match command with
  | "states" => .ok (.states (format p))
  | "matrix" => .ok (.matrix (transaction p) (p.has "calls") (format p))
  | "simulate" =>
    if p.has "ops" then
      .ok (.simulate ((p.values "ops").flatMap commaSeparated) (transaction p)
        (p.has "keep-going") (format p))
    else .error .usage
  | _ => .ok .version

def helpFor (args : List String) : Stop :=
  match args with
  | [] => .help
  | [command] => if topGrammar.commands.contains command then .help else .usage
  | _ => .usage

def parse (args : List String) : Except Stop Command :=
  match topGrammar.parse args with
  | .error stop => .error stop
  | .ok ⟨_, none⟩ => .error .usage
  | .ok ⟨_, some ("help", rest)⟩ => .error (helpFor rest)
  | .ok ⟨_, some (command, rest)⟩ => ((grammar command).parse rest).bind (ofParsed command)

end Command

end Lifecycle.CommandLine
