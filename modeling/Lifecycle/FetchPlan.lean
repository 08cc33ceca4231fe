import Lifecycle.Text.Inspect

/-! Fetch plans: the groups of fields that are loaded together. -/
namespace Lifecycle

/-- A set of group names, kept increasing by code point and without repetitions. -/
structure FetchPlan where
  groups : List String
  deriving DecidableEq

namespace FetchPlan

def defaultGroup : String := "default"

def allGroup : String := "all"

def place (group : String) : List String → List String
  | [] => [group]
  | g :: rest =>
    if group < g then group :: g :: rest
    else if group = g then g :: rest
    else g :: place group rest

/-- No group: the primary key alone. -/
def empty : FetchPlan := ⟨[]⟩

def insert (p : FetchPlan) (group : String) : FetchPlan :=
  ⟨place group p.groups⟩

def erase (p : FetchPlan) (group : String) : FetchPlan :=
  ⟨p.groups.filter (· ≠ group)⟩

def contains (p : FetchPlan) (group : String) : Bool :=
  p.groups.contains group

def ofList (groups : List String) : FetchPlan :=
  groups.foldl insert empty

def standard : FetchPlan := ofList [defaultGroup]

def everything : FetchPlan := ofList [allGroup]

def inspect (p : FetchPlan) : String :=
  Text.Inspect.record "FetchPlan" [("groups", Text.Inspect.set (p.groups.map Text.quoted))]

end FetchPlan

end Lifecycle
