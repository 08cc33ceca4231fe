import Lifecycle.Proofs.Cached
import Lifecycle.Proofs.Columns
import Lifecycle.Proofs.Refreshing

/-! An instance that keeps its fields in columns, with every access to a column checked: a call that
reached past the end of one would have no result. For an instance that has the slots of its class
there always is a result, and it is the one that the instance itself gives. -/
namespace Lifecycle

namespace Schema

def plainFields (c : Schema) : List Nat :=
  (List.range c.fieldCount).filter fun n => !c.isPrimaryKey n

def fieldsOutside (c : Schema) (plan : FetchPlan) : List Nat :=
  (List.range c.fieldCount).filter fun n => !(c.planFields plan).contains n

end Schema

/-- Goes on from where a successful call ended, if that call has a result at all. -/
def Outcome.andThen? {σ α β : Type} (o? : Option (Outcome σ α))
    (next : σ → α → Option (Outcome σ β)) : Option (Outcome σ β) := do
  let o ← o?
  match o.answer with
  | .ok a => next o.after a
  | .error f => some (.failed o.after f)

structure Columnar where
  id : ObjectId
  schema : Schema
  plan : FetchPlan
  fields : Columns
  saved : Option Columns
  state : State
  enlisted : Bool
  connected : Bool

def Instance.columnar (o : Instance) : Columnar where
  id := o.id
  schema := o.schema
  plan := o.plan
  fields := .ofSlots o.cache.slots
  saved := o.cache.saved.map .ofSlots
  state := o.state
  enlisted := o.enlisted
  connected := o.connected

namespace Instance

private theorem columnar_id (o : Instance) : o.columnar.id = o.id := rfl

private theorem columnar_schema (o : Instance) : o.columnar.schema = o.schema := rfl

private theorem columnar_fields (o : Instance) : o.columnar.fields = .ofSlots o.cache.slots := rfl

private theorem columnar_state (o : Instance) : o.columnar.state = o.state := rfl

end Instance

namespace Columnar

def create (id : ObjectId) (schema : Schema) (values : List Value) : Except Failure Columnar :=
  if values.length = schema.fieldCount then
    .ok ⟨id, schema, .standard, .ofValues values, none, .transient, false, true⟩
  else
    .error (.invalidMetadata schema.name
      ("expected " ++ toString schema.fieldCount ++ " field values, got "
        ++ toString values.length))

def fill (fields : Columns) (numbers : List Nat) (row : Row) : Option Columns :=
  numbers.foldlM (fun fields n => fields.write n (.clean (row.entry n))) fields

def hollow (store : Store) (id : ObjectId) (schema : Schema) : Option (Except Failure Columnar) :=
  match store.fetch id with
  | .error f => some (.error f)
  | .ok row => do
    let fields ← fill (.unloaded schema.fieldCount) schema.keyFields row
    return .ok ⟨id, schema, .standard, fields, none, .hollow, false, true⟩

def unload (fields : Columns) (numbers : List Nat) : Option Columns :=
  numbers.foldlM (fun fields n => fields.write n .unloaded) fields

def load (store : Store) (numbers : List Nat) (o : Columnar) :
    Option (Except Failure Columnar) :=
  if numbers = [] then some (.ok o)
  else
    match store.fetch o.id with
    | .error f => some (.error f)
    | .ok row => do
      let fields ← fill o.fields numbers row
      return .ok { o with fields }

def perform (store : Store) (e : Effect) (o : Columnar) : Option (Except Failure Columnar) :=
  match e with
  | .saveFields => some (.ok { o with saved := some o.fields })
  | .restoreFields => some (.ok { o with fields := o.saved.getD o.fields, saved := none })
  | .clearSavedFields => some (.ok { o with saved := none })
  | .clearNonPrimaryKeyFields => do
    let fields ← unload o.fields o.schema.plainFields
    return .ok { o with fields }
  | .clearLoadedFlags => do
    let fields ← o.schema.plainFields.foldlM Columns.markUnloaded o.fields
    return .ok { o with fields }
  | .unloadNonFetchPlanFields => do
    let fields ← unload o.fields (o.schema.fieldsOutside o.plan)
    return .ok { o with fields }
  | .loadUnloadedFields => o.load store (Columns.positions o.fields.loaded false)
  | .loadUnloadedFieldsInFetchPlan => do
    let numbers ← o.fields.unloadedIn (o.schema.planFields o.plan)
    o.load store numbers
  | .loadUnloadedFieldsInPlan plan => do
    let numbers ← o.fields.unloadedIn (o.schema.planFields plan)
    o.load store numbers
  | .refreshLoadedFields => o.load store (Columns.positions o.fields.loaded true)
  | .refreshFieldsInFetchPlan => o.load store (o.schema.planFields o.plan)
  | .enlist => some (.ok { o with enlisted := true })
  | .evict => some (.ok { o with enlisted := false })
  | .disconnect => some (.ok { o with fields := o.fields.markAllLoaded, connected := false })

def performAll (store : Store) : List Effect → Columnar → Option (Outcome Columnar Unit)
  | [], o => some (.done o ())
  | e :: rest, o => do
    match ← o.perform store e with
    | .ok o' => performAll store rest o'
    | .error f => some (.failed o f)

def apply (tx : Transaction) (store : Store) (r : Request) (o : Columnar) :
    Option (Outcome Columnar State) :=
  match transition tx o.schema.identity r o.state with
  | .error refusal => some (.failed o (refusal.failure o.id o.state r.operation))
  | .ok move =>
    Outcome.andThen? (performAll store move.effects o) fun o' _ =>
      some (.done { o' with state := move.next } move.next)

def ifDeclared {α : Type} (o : Columnar) (n : Nat) (go : Option (Outcome Columnar α)) :
    Option (Outcome Columnar α) :=
  if n < o.schema.fieldCount then go
  else some (.failed o (.unknownField o.schema.name (toString n)))

def supply (store : Store) (n : Nat) (o : Columnar) : Option (Outcome Columnar Unit) := do
  let isLoaded ← o.fields.loaded[n]?
  if ¬ isLoaded ∧ o.connected ∧ o.state.isPersistent then
    let loaded ← o.load store [n]
    return .change o loaded
  else return .done o ()

def readField (tx : Transaction) (store : Store) (n : Nat) (o : Columnar) :
    Option (Outcome Columnar Value) :=
  o.ifDeclared n do
    let isLoaded ← o.fields.loaded[n]?
    Outcome.andThen? (o.apply tx store (.readField isLoaded)) fun o' _ =>
      Outcome.andThen? (o'.supply store n) fun o'' _ => do
        let v ← o''.fields.values[n]?
        return .done o'' v

def writeField (tx : Transaction) (store : Store) (n : Nat) (v : Value) (o : Columnar) :
    Option (Outcome Columnar Unit) :=
  o.ifDeclared n <|
    if o.schema.isPrimaryKey n ∧ o.state.isPersistent ∧ ¬ o.state.isNew then
      some (.failed o (.invalidOperation o.id o.state .writeField
        "primary key fields of a stored instance are immutable"))
    else
      Outcome.andThen? (o.apply tx store .writeField) fun o' _ => do
        let fields ← o'.fields.write n (.written v)
        return .done { o' with fields } ()

def written (store : Store) (o : Columnar) : Option (Except Failure Store) :=
  match o.state.isNew, o.state.isDeleted with
  | true, true => some (.ok store)
  | true, false => some (store.insert o.id o.fields.values)
  | false, true => some (store.delete o.id)
  | false, false => do
    let changes ← o.fields.changes
    return if o.state.isDirty ∧ changes ≠ [] then store.update o.id changes else .ok store

def flush (store : Store) (o : Columnar) : Option (Outcome (Store × Columnar) Unit) :=
  if o.state.isPersistent then do
    let written ← o.written store
    return .change (store, o)
      (written.map fun store' => (store', { o with fields := o.fields.clearDirty }))
  else some (.done (store, o) ())

def detach (tx : Transaction) (store : Store) (o : Columnar) :
    Option (Outcome (Store × Columnar) State) :=
  if o.state.isPersistent && o.state.isDirty && !o.state.isDeleted then
    if tx.active then
      some (.failed (store, o) (.invalidOperation o.id o.state .detach
        "pending changes must be committed before detaching"))
    else
      Outcome.andThen? (o.flush store) fun (store', o') _ => do
        let detached ← o'.apply tx store' .detach
        return detached.within (store', ·)
  else do
    let detached ← o.apply tx store .detach
    return detached.within (store, ·)

def withField {α : Type} (field : FieldRef) (o : Columnar)
    (go : Nat → Option (Outcome Columnar α)) : Option (Outcome Columnar α) :=
  match field.resolve o.schema with
  | .ok n => go n
  | .error f => some (.failed o f)

/-- Carries a call out, unless it reaches past the end of a column. -/
def call (tx : Transaction) (c : Instance.Call) (store : Store) (o : Columnar) :
    Option (Outcome (Store × Columnar) Answer) :=
  let plain (r : Request) : Option (Outcome (Store × Columnar) Answer) := do
    let applied ← o.apply tx store r
    return (applied.map .state).within (store, ·)
  match c with
  | .makePersistent => plain .makePersistent
  | .deletePersistent => plain .deletePersistent
  | .makeTransactional refreshFields => plain (.makeTransactional refreshFields)
  | .makeNontransactional => plain .makeNontransactional
  | .makeTransient useFetchPlan =>
    plain (.makeTransient useFetchPlan tx.options.detachAllOnCommit)
  | .refresh => plain .refresh
  | .evict => plain .evict
  | .retrieve fetchPlanOnly => plain (.retrieve fetchPlanOnly)
  | .retrieveWith plan => plain (.retrieveWith plan)
  | .detach => do
    let detached ← o.detach tx store
    return detached.map .state
  | .attach => plain .attach
  | .serialize => plain .serialize
  | .read field => do
    let read ← o.withField field fun n => o.readField tx store n
    return (read.map .value).within (store, ·)
  | .write field v => do
    let written ← o.withField field fun n => o.writeField tx store n v
    return (written.map fun _ => .done).within (store, ·)
  | .flush => do
    let flushed ← o.flush store
    return flushed.map fun _ => .done
  | .setPlan plan => some (.done (store, { o with plan }) (.groups plan.groups))
  | .apply r => plain r
  | .perform e => do
    let performed ← o.perform store e
    return ((Outcome.change o performed).map fun _ => .done).within (store, ·)

end Columnar

private theorem Outcome.andThen?_within {σ τ α β : Type} {f : σ → τ} {o : Outcome σ α}
    {next : σ → α → Outcome σ β} {next? : τ → α → Option (Outcome τ β)}
    (h : ∀ a, o.answer = .ok a → next? (f o.after) a = some ((next o.after a).within f)) :
    Outcome.andThen? (some (o.within f)) next? = some ((o.andThen next).within f) := by
  obtain ⟨s, answer⟩ := o
  cases answer with
  | ok a => exact h a rfl
  | error e => rfl

namespace Instance
variable {tx : Transaction} {store : Store} {o : Instance} {n : Nat} {numbers : List Nat}

/-- A new instance, taken apart, is a new instance in columns. -/
theorem create_columnar (id : ObjectId) (schema : Schema) (values : List Value) :
    Columnar.create id schema values = (create id schema values).map columnar := by
  rw [Columnar.create, create]
  split
  · simp only [Except.map, columnar, Columns.ofSlots_ofValues]
    rfl
  · rfl

private theorem fill_columnar {c : Cache} {selected : Nat → Slot → Bool}
    (h : ∀ n, n ∈ numbers ↔ n ∈ c.fieldsWhere selected) (row : Row) :
    Columnar.fill (.ofSlots c.slots) numbers row =
      some (.ofSlots (c.load selected row).slots) :=
  Columns.foldlM_update (fun _ n hn => Columns.write_ofSlots (.clean (row.entry n)) hn)
    (fun _ _ => rfl) h

private theorem unload_columnar {c : Cache} {selected : Nat → Bool}
    (h : ∀ n, n ∈ numbers ↔ n ∈ c.fieldsWhere fun n _ => selected n) :
    Columnar.unload (.ofSlots c.slots) numbers = some (.ofSlots (c.unload selected).slots) :=
  Columns.foldlM_update (fun _ _ hn => Columns.write_ofSlots .unloaded hn) (fun _ _ => rfl) h

private theorem mem_fieldsWhere_of_size {c : Cache} {count : Nat} (hs : c.size = count)
    {selected : Nat → Bool} :
    n ∈ (List.range count).filter selected ↔ n ∈ c.fieldsWhere fun n _ => selected n := by
  rw [Cache.fieldsWhere_number, hs]

/-- Whatever rows are in the store, the key of a new hollow instance finds its place. -/
theorem hollow_columnar (store : Store) (id : ObjectId) (schema : Schema) :
    Columnar.hollow store id schema = some ((hollow store id schema).map columnar) := by
  rw [Columnar.hollow, hollow]
  cases store.fetch id with
  | error f => rfl
  | ok row =>
    have hkey : ∀ n, n ∈ schema.keyFields ↔
        n ∈ (Cache.unloaded schema.fieldCount).fieldsWhere fun n _ => schema.isPrimaryKey n :=
      fun n => mem_fieldsWhere_of_size (by simp [Cache.size, Cache.unloaded])
    simp only [← Columns.ofSlots_unloaded, fill_columnar hkey row]
    rfl

private theorem load_columnar {selected : Nat → Slot → Bool}
    (h : ∀ n, n ∈ numbers ↔ n ∈ o.cache.fieldsWhere selected) :
    o.columnar.load store numbers = some ((o.load store selected).map columnar) := by
  have hnil : numbers = [] ↔ o.cache.fieldsWhere selected = [] := by
    simp only [List.eq_nil_iff_forall_not_mem, h]
  rw [Columnar.load, load]
  by_cases hn : numbers = []
  · rw [if_pos hn, if_pos (hnil.mp hn)]
    rfl
  · rw [if_neg hn, if_neg (hn ∘ hnil.mpr), columnar_id]
    cases store.fetch o.id with
    | error f => rfl
    | ok row =>
      simp only [columnar, fill_columnar h row]
      rfl

private theorem load_unloadedIn (h : o.Sized) (plan : FetchPlan) :
    (do
      let numbers ← o.columnar.fields.unloadedIn (o.schema.planFields plan)
      o.columnar.load store numbers) =
      some ((o.load store fun n s => o.schema.selects plan n && !s.loaded).map columnar) := by
  have hdeclared : ∀ n ∈ o.schema.planFields plan, n < o.cache.size := fun n hn =>
    h.lt_length (Schema.lt_of_selects (Schema.mem_planFields.mp hn))
  refine (congrArg (· >>= _) (Columns.unloadedIn_ofSlots hdeclared)).trans ?_
  refine load_columnar fun n => ?_
  rw [List.mem_filter, Schema.planFields, mem_fieldsWhere_of_size h.slots, Cache.mem_fieldsWhere,
    Cache.mem_fieldsWhere]
  constructor
  · rintro ⟨⟨s, hs, hsel⟩, hl⟩
    exact ⟨s, hs, by simpa [Cache.isLoaded, hs, hsel] using hl⟩
  · rintro ⟨s, hs, hsel⟩
    simp only [Bool.and_eq_true] at hsel
    exact ⟨⟨s, hs, hsel.1⟩, by simpa [Cache.isLoaded, hs] using hsel.2⟩

private theorem mem_plainFields (h : o.Sized) :
    n ∈ o.schema.plainFields ↔ n ∈ o.cache.fieldsWhere fun n _ => !o.schema.isPrimaryKey n :=
  mem_fieldsWhere_of_size h.slots

private theorem mem_fieldsOutside (h : o.Sized) (plan : FetchPlan) :
    n ∈ o.schema.fieldsOutside plan ↔
      n ∈ o.cache.fieldsWhere fun n _ => !o.schema.selects plan n := by
  rw [← mem_fieldsWhere_of_size h.slots, Schema.fieldsOutside, List.mem_filter, List.mem_filter]
  simp [Schema.mem_planFields]

private theorem perform_columnar (store : Store) (e : Effect) (h : o.Sized) :
    o.columnar.perform store e = some ((o.perform store e).map columnar) := by
  cases e with
  | saveFields | clearSavedFields | enlist | evict => rfl
  | restoreFields =>
    simp only [Columnar.perform, perform, columnar, Cache.restore, Except.map]
    cases o.cache.saved <;> rfl
  | disconnect =>
    simp only [Columnar.perform, perform, columnar, Except.map, Columns.ofSlots_markAllLoaded]
    rfl
  | clearNonPrimaryKeyFields =>
    simp only [Columnar.perform, columnar, unload_columnar fun _ => mem_plainFields h]
    rfl
  | clearLoadedFlags =>
    have hmark := Columns.foldlM_update (fun _ _ hn => Columns.markUnloaded_ofSlots hn)
      (fun _ _ => rfl) fun _ => mem_plainFields h
    simp only [Columnar.perform, columnar, hmark]
    rfl
  | unloadNonFetchPlanFields =>
    simp only [Columnar.perform, columnar, unload_columnar fun _ => mem_fieldsOutside h o.plan]
    rfl
  | loadUnloadedFields =>
    refine load_columnar fun n => ?_
    simpa [columnar, Cache.mem_fieldsWhere] using Columns.mem_positions_loaded o.cache false
  | refreshLoadedFields =>
    refine load_columnar fun n => ?_
    simpa [columnar, Cache.mem_fieldsWhere] using Columns.mem_positions_loaded o.cache true
  | loadUnloadedFieldsInFetchPlan => exact load_unloadedIn h o.plan
  | loadUnloadedFieldsInPlan plan => exact load_unloadedIn h plan
  | refreshFieldsInFetchPlan => exact load_columnar fun n => mem_fieldsWhere_of_size h.slots

private theorem performAll_columnar (es : List Effect) (h : o.Sized) :
    o.columnar.performAll store es = some ((performAll store es o).within columnar) := by
  induction es generalizing o with
  | nil => rfl
  | cons e rest ih =>
    rw [Columnar.performAll, perform_columnar store e h, performAll]
    cases hp : o.perform store e with
    | ok o' => exact ih (h.perform hp)
    | error f => rfl

private theorem apply_columnar (tx : Transaction) (store : Store) (r : Request) (h : o.Sized) :
    o.columnar.apply tx store r = some ((o.apply tx store r).within columnar) := by
  rw [Columnar.apply, apply, columnar_schema, columnar_state]
  cases transition tx o.schema.identity r o.state with
  | error refusal => rfl
  | ok move =>
    simp only [performAll_columnar move.effects h]
    exact Outcome.andThen?_within fun _ _ => rfl

private theorem supply_columnar (h : o.Sized) (hn : n < o.schema.fieldCount) :
    o.columnar.supply store n = some ((o.supply store n).within columnar) := by
  have hsize : n < o.cache.size := h.lt_length hn
  have hmem : ∀ m, m ∈ [n] ↔ m ∈ o.cache.fieldsWhere fun m _ => m = n := by
    intro m
    rw [List.mem_singleton, Cache.mem_fieldsWhere]
    constructor
    · rintro rfl
      exact ⟨_, List.getElem?_eq_getElem hsize, by simp⟩
    · rintro ⟨_, _, hm⟩
      simpa using hm
  rw [Columnar.supply, columnar_fields, Columns.loaded_ofSlots hsize, supply]
  change (if ¬ o.cache.isLoaded n ∧ o.connected ∧ o.state.isPersistent then _ else _) = _
  split
  · rw [load_columnar hmem]
    cases o.load store fun m _ => m = n <;> rfl
  · rfl

private theorem apply_sized (tx : Transaction) (store : Store) (r : Request) (h : o.Sized)
    (hn : n < o.schema.fieldCount) :
    (o.apply tx store r).after.Sized ∧ n < (o.apply tx store r).after.schema.fieldCount := by
  rw [(apply_frame tx store r o).2]
  exact ⟨Sized.keptByWork.applied h, hn⟩

private theorem supply_sized (store : Store) (h : o.Sized) (hn : n < o.schema.fieldCount) :
    n < (o.supply store n).after.cache.size := by
  rw [supply]
  split
  · cases hl : o.load store fun m _ => m = n with
    | error f => exact h.lt_length hn
    | ok o' =>
      have hschema : o'.schema = o.schema := by
        rcases load_cases hl with ⟨_, rfl⟩ | ⟨_, _, rfl⟩ <;> rfl
      have hsize := (Sized.keptByWork.loaded hl h).slots
      rw [hschema] at hsize
      exact hsize.symm ▸ hn
  · exact h.lt_length hn

private theorem readField_columnar (tx : Transaction) (store : Store) (n : Nat) (h : o.Sized) :
    o.columnar.readField tx store n = some ((o.readField tx store n).within columnar) := by
  rw [Columnar.readField, readField, Columnar.ifDeclared, ifDeclared, columnar_schema]
  by_cases hn : n < o.schema.fieldCount
  · obtain ⟨hsized, hdeclared⟩ := apply_sized tx store (.readField (o.cache.isLoaded n)) h hn
    rw [if_pos hn, if_pos hn, columnar_fields,
      Columns.loaded_ofSlots (h.lt_length hn)]
    simp only [Option.bind_eq_bind, Option.bind_some, apply_columnar tx store _ h]
    refine Outcome.andThen?_within fun _ _ => ?_
    rw [supply_columnar hsized hdeclared]
    refine Outcome.andThen?_within fun _ _ => ?_
    rw [columnar, Columns.value_ofSlots (supply_sized store hsized hdeclared)]
    rfl
  · rw [if_neg hn, if_neg hn]
    rfl

private theorem writeField_columnar (tx : Transaction) (store : Store) (n : Nat) (v : Value)
    (h : o.Sized) :
    o.columnar.writeField tx store n v = some ((o.writeField tx store n v).within columnar) := by
  rw [Columnar.writeField, writeField, Columnar.ifDeclared, ifDeclared, columnar_schema,
    columnar_state]
  by_cases hn : n < o.schema.fieldCount
  · obtain ⟨hsized, hdeclared⟩ := apply_sized tx store .writeField h hn
    rw [if_pos hn, if_pos hn]
    split
    · rfl
    · rw [apply_columnar tx store _ h]
      refine Outcome.andThen?_within fun _ _ => ?_
      rw [columnar, Columns.write_ofSlots (.written v) (hsized.lt_length hdeclared),
        ← List.set_eq_modify]
      rfl
  · rw [if_neg hn, if_neg hn]
    rfl

private theorem written_columnar (store : Store) (o : Instance) :
    o.columnar.written store = some (o.written store) := by
  rw [Columnar.written, written, columnar_state]
  cases o.state.isNew <;> cases o.state.isDeleted
  case false.false =>
    simp only [columnar, Columns.changes_ofSlots]
    rfl
  all_goals rfl

private theorem flush_columnar (store : Store) (o : Instance) :
    o.columnar.flush store = some ((o.flush store).within fun p => (p.1, p.2.columnar)) := by
  rw [Columnar.flush, flush, columnar_state, written_columnar]
  split
  · simp only [columnar, ← Columns.ofSlots_clearDirty]
    cases o.written store <;> rfl
  · rfl

private theorem detach_columnar (tx : Transaction) (store : Store) (h : o.Sized) :
    o.columnar.detach tx store =
      some ((o.detach tx store).within fun p => (p.1, p.2.columnar)) := by
  rw [Columnar.detach, detach, hasPendingChanges, columnar_state]
  split
  · split
    · rfl
    · have hsized : (o.flush store).after.2.Sized :=
        flush_kept (P := fun _ a => a.Sized) h fun _ _ _ => Sized.keptByWork.flushed h
      rw [flush_columnar]
      refine Outcome.andThen?_within fun _ _ => ?_
      simp only [apply_columnar tx _ _ hsized]
      rfl
  · rw [apply_columnar tx store _ h]
    rfl

private theorem withField_columnar {α : Type} (field : FieldRef) (o : Instance)
    {go : Nat → Outcome Instance α} {go? : Nat → Option (Outcome Columnar α)}
    (h : ∀ n, go? n = some ((go n).within columnar)) :
    o.columnar.withField field go? = some ((o.withField field go).within columnar) := by
  rw [Columnar.withField, withField, columnar_schema]
  cases field.resolve o.schema with
  | ok n => exact h n
  | error f => rfl

/-- No call reaches past the end of a column, whatever field it names, whatever it loads, and
whatever rows it finds. -/
theorem call_columnar (tx : Transaction) (store : Store) (c : Call) (h : o.Sized) :
    o.columnar.call tx c store =
      some ((o.call tx c store).within fun p => (p.1, p.2.columnar)) := by
  cases c with
  | read field =>
    have hfield := withField_columnar field o fun n =>
      readField_columnar tx store n h
    simp only [Columnar.call, hfield]
    rfl
  | write field v =>
    have hfield := withField_columnar field o fun n =>
      writeField_columnar tx store n v h
    simp only [Columnar.call, hfield]
    rfl
  | flush =>
    simp only [Columnar.call, flush_columnar]
    rfl
  | detach =>
    simp only [Columnar.call, detach_columnar tx store h]
    rfl
  | setPlan plan => rfl
  | perform e =>
    simp only [Columnar.call, perform_columnar store e h, call]
    cases o.perform store e <;> rfl
  | _ =>
    simp only [Columnar.call, apply_columnar tx store _ h]
    rfl

end Instance

end Lifecycle
