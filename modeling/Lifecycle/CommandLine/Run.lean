import Lifecycle.CommandLine.Command
import Lifecycle.Json
import Lifecycle.Json.Parser
import Lifecycle.Matrix
import Lifecycle.Scenario.Simulation

/-! What each command prints and how it ends. The only thing outside is the reading of a file. -/
namespace Lifecycle.CommandLine

inductive Ending where
  | success
  | help
  | usage
  /-- Something went wrong that can be told in a sentence. -/
  | failure (message : String)
  /-- A scenario could not be set up. -/
  | refused (f : Failure)
  /-- The file of options holds no options. -/
  | badOptions
  deriving DecidableEq

def Ending.exitCode : Ending → Nat
  | success | help => 0
  | failure _ | refused _ | badOptions => 1
  | usage => 2

def Ending.errorLine? : Ending → Option String
  | failure message => some ("Error: " ++ Text.quoted message)
  | _ => none

structure Result where
  output : String
  ending : Ending

def programVersion : String := "0.1.0"

/-- Reads a file, or tells why it cannot be read. -/
abbrev FileReader := String → Except String String

def TransactionRequest.resolve (readFile : FileReader) (r : TransactionRequest) :
    Except Ending Options :=
  match r.file with
  | none => .ok r.options
  | some path =>
    match readFile path with
    | .error why => .error (.failure ("cannot read " ++ path ++ ": " ++ why))
    | .ok content =>
      match (Json.parse? content).bind Options.ofJson? with
      | none => .error .badOptions
      | some options => .ok (options.union r.options)

def print (format : Format) (lines : List String) (json : Json) : String :=
  match format with
  | .text => Text.lines lines
  | .json => Text.lines [json.pretty]

def runMatrix (ids : IdSource) (tx : TransactionRequest) (options : Options)
    (calls : Bool) (format : Format) : Result :=
  let m := Matrix.compute options tx.active ids
  ⟨print format (m.lines calls) m.toJson, .success⟩

def runSimulation (ids : IdSource) (steps : List String) (tx : TransactionRequest)
    (options : Options) (keepGoing : Bool) (format : Format) : Result :=
  match steps.mapM Scenario.Step.parse with
  | .error e => ⟨"", .failure e.message⟩
  | .ok steps =>
    match Scenario.simulate steps options tx.active keepGoing ids with
    | .error f => ⟨"", .refused f⟩
    | .ok (reports, failed) =>
      ⟨print format (Scenario.Report.lines reports) (.array (reports.map (·.toJson))),
        if failed && !keepGoing then .failure "simulation stopped at the first failing step"
        else .success⟩

def withOptions (readFile : FileReader) (tx : TransactionRequest)
    (go : Options → Result) : Result :=
  match tx.resolve readFile with
  | .ok options => go options
  | .error ending => ⟨"", ending⟩

def Command.run (readFile : FileReader) (ids : IdSource) : Command → Result
  | states format => ⟨print format StateTable.lines StateTable.toJson, .success⟩
  | matrix tx calls format =>
    withOptions readFile tx fun options => runMatrix ids tx options calls format
  | simulate steps tx keepGoing format =>
    withOptions readFile tx fun options => runSimulation ids steps tx options keepGoing format
  | version =>
    ⟨Text.lines ["jdostate v" ++ programVersion, "JDO Core v" ++ programVersion], .success⟩

def run (readFile : FileReader) (ids : IdSource) (args : List String) : Result :=
  match Command.parse args with
  | .ok command => command.run readFile ids
  | .error .version => ⟨Text.lines ["jdostate " ++ programVersion], .success⟩
  | .error .help => ⟨"", .help⟩
  | .error .usage => ⟨"", .usage⟩

end Lifecycle.CommandLine
