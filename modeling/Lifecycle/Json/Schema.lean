import Lifecycle.Json.Reading
import Lifecycle.Operation
import Lifecycle.Schema
import Lifecycle.State
import Lifecycle.Transaction
import Lifecycle.Transition.Effect

/-! States, operations, effects, classes, fetch plans and transaction options in JSON. What is read
is not checked for faults of declaration. -/
namespace Lifecycle

def State.toJson (s : State) : Json :=
  .text s.code

def Operation.toJson (o : Operation) : Json :=
  .text o.name

def Effect.toJson (e : Effect) : Json :=
  match e with
  | .loadUnloadedFieldsInPlan plan =>
    .record [("call", .text e.name), ("plan", .texts plan.groups)]
  | _ => .record [("call", .text e.name)]

namespace FetchPlan

def toJson (p : FetchPlan) : Json :=
  .record [("groups", .texts p.groups)]

def ofJson? (v : Json) : Option FetchPlan :=
  match v.fields? ["groups"] with
  | some [some groups] => (groups.listOf? Json.text?).map ofList
  | _ => none

end FetchPlan

namespace Identity

def toJson (i : Identity) : Json :=
  .text i.name

/-- A name, alone or as the only key of an object that holds null. -/
def ofJson? : Json → Option Identity
  | .string (some s) => ofName? s
  | .object [(some s, .null)] => ofName? s
  | _ => none

end Identity

namespace Field

def toJson (f : Field) : Json :=
  .record
    [("name", .text f.name), ("primary_key", .bool f.primaryKey),
      ("default_fetch_group", .bool f.defaultFetchGroup),
      ("fetch_groups", .texts f.fetchGroups)]

def ofJson? (v : Json) : Option Field :=
  match v.fields? ["name", "primary_key", "default_fetch_group", "fetch_groups"] with
  | some [some name, some primaryKey, some defaultFetchGroup, some fetchGroups] =>
    match name.text?, primaryKey.bool?, defaultFetchGroup.bool?,
      fetchGroups.listOf? Json.text? with
    | some name, some primaryKey, some defaultFetchGroup, some fetchGroups =>
      some ⟨name, primaryKey, defaultFetchGroup, fetchGroups⟩
    | _, _, _, _ => none
  | _ => none

end Field

namespace Schema

def toJson (c : Schema) : Json :=
  .record
    [("name", .text c.name), ("identity_type", c.identity.toJson),
      ("fields", .array (c.fields.map (·.toJson)))]

def ofJson? (v : Json) : Option Schema :=
  match v.fields? ["name", "identity_type", "fields"] with
  | some [some name, some identity, some fields] =>
    match name.text?, Identity.ofJson? identity, fields.listOf? Field.ofJson? with
    | some name, some identity, some fields => some ⟨name, identity, fields⟩
    | _, _, _ => none
  | _ => none

end Schema

namespace Options

def toJson (o : Options) : Json :=
  .record (o.entries.map fun (name, value) => (name, .bool value))

/-- An option that is missing is off. -/
def ofJson? (v : Json) : Option Options :=
  let flag (v : Option Json) : Option Bool := v.elim (some false) Json.bool?
  match (v.fields? (standard.entries.map (·.1))).bind fun found => found.mapM flag with
  | some [optimistic, nontransactionalRead, nontransactionalWrite, retainValues, restoreValues,
      detachAllOnCommit] =>
    some ⟨optimistic, nontransactionalRead, nontransactionalWrite, retainValues, restoreValues,
      detachAllOnCommit⟩
  | _ => none

end Options

end Lifecycle
