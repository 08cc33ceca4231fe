import Mathlib.Data.List.Basic
import Lifecycle.Instance.Call
import Lifecycle.Proofs.Step

/-! What a refresh makes of an instance: the fields that its fetch plan selects are as they are in
the row, and of the others nothing is known. What the cache was like before does not matter. -/
namespace Lifecycle

namespace Cache
variable {c : Cache} {p q : Nat → Slot → Bool} {schema : Schema} {plan : FetchPlan} {row : Row}
  {n : Nat}

private theorem fieldsWhere_congr (h : ∀ n s, c.slot? n = some s → p n s = q n s) :
    c.fieldsWhere p = c.fieldsWhere q := by
  refine List.filterMap_congr fun (s, n) hmem => ?_
  simp only [h n s (List.mem_zipIdx_iff_getElem?.mp hmem)]

/-- Where the slots do not matter the fields are those of the class. -/
theorem fieldsWhere_number (c : Cache) (p : Nat → Bool) :
    c.fieldsWhere (fun n _ => p n) = (List.range c.size).filter p := by
  have hnumbers : c.slots.zipIdx.map Prod.snd = List.range c.size := by
    rw [List.zipIdx_map_snd, List.range_eq_range']
    rfl
  rw [← hnumbers, ← List.filterMap_eq_filter, List.filterMap_map]
  rfl

private theorem load_of_none_selected {selected : Nat → Slot → Bool} (row : Row)
    (h : c.fieldsWhere selected = []) : c.load selected row = c := by
  refine eq_of_slots (fun n => ?_) rfl
  rw [slot?_load]
  cases hn : c.slot? n with
  | none => rfl
  | some s =>
    have hnot : ¬ selected n s = true := fun hs => by
      have hmem := mem_fieldsWhere.mpr ⟨s, hn, hs⟩
      rw [h] at hmem
      cases hmem
    rw [Option.map_some, if_neg hnot]

def ofPlan (schema : Schema) (plan : FetchPlan) (row : Row) : Cache :=
  ⟨(List.range schema.fieldCount).map fun n =>
    if schema.selects plan n then .clean (row.entry n) else .unloaded, none⟩

private theorem size_ofPlan (schema : Schema) (plan : FetchPlan) (row : Row) :
    (ofPlan schema plan row).size = schema.fieldCount := by
  rw [size, ofPlan, List.length_map, List.length_range]

private theorem slot?_ofPlan (h : n < schema.fieldCount) :
    (ofPlan schema plan row).slot? n =
      some (if schema.selects plan n then .clean (row.entry n) else .unloaded) := by
  rw [slot?, ofPlan, List.getElem?_map, List.getElem?_range h]
  rfl

private theorem mem_ofPlan {s : Slot} (h : (ofPlan schema plan row).slot? n = some s) :
    s = if schema.selects plan n then .clean (row.entry n) else .unloaded := by
  have hn : n < (ofPlan schema plan row).size := (List.getElem?_eq_some_iff.mp h).1
  rw [size_ofPlan] at hn
  rw [slot?_ofPlan hn] at h
  exact (Option.some.inj h).symm

private theorem loadedFields_ofPlan (schema : Schema) (plan : FetchPlan) (row : Row) :
    (ofPlan schema plan row).loadedFields = schema.planFields plan := by
  rw [Schema.planFields, ← size_ofPlan schema plan row, ← fieldsWhere_number]
  refine fieldsWhere_congr fun n s hs => ?_
  rw [mem_ofPlan hs]
  cases schema.selects plan n <;> rfl

/-- The fields that the plan selects are loaded, and no others. -/
theorem isLoaded_ofPlan :
    (ofPlan schema plan row).isLoaded n = true ↔ n ∈ schema.planFields plan := by
  rw [← loadedFields_ofPlan schema plan row, loadedFields, mem_fieldsWhere, isLoaded,
    Option.any_eq_true]

private theorem changes_ofPlan : (ofPlan schema plan row).changes = [] := by
  rw [List.eq_nil_iff_forall_not_mem]
  rintro ⟨n, v⟩ hmem
  obtain ⟨s, hs, hd, _⟩ := mem_changes.mp hmem
  rw [mem_ofPlan hs] at hd
  split at hd <;> cases hd

private theorem unload_load_eq_ofPlan (hc : c.size = schema.fieldCount) (hs : c.saved = none) :
    ((c.load (fun n _ => schema.selects plan n) row).unload fun n => !schema.selects plan n) =
      ofPlan schema plan row := by
  have hslots : ((c.load (fun n _ => schema.selects plan n) row).unload fun n =>
      !schema.selects plan n).slots = (ofPlan schema plan row).slots := by
    have hlength : c.slots.length = schema.fieldCount := hc
    refine List.ext_getElem (by simp [unload, load, update, ofPlan, hlength]) fun n hn _ => ?_
    simp only [unload, load, update, ofPlan, List.getElem_mapIdx, List.getElem_map,
      List.getElem_range]
    cases schema.selects plan n <;> rfl
  exact (congrArg (Cache.mk · c.saved) hslots).trans (congrArg (Cache.mk _ ·) hs)

end Cache

namespace Instance
variable {tx : Transaction} {store : Store} {o : Instance}

private theorem load_of_row {selected : Nat → Slot → Bool}
    (h : (store.row? o.id).isSome = true ∨ o.cache.fieldsWhere selected = []) :
    o.load store selected =
      .ok { o with cache := o.cache.load selected ((store.row? o.id).getD []) } := by
  rw [load]
  split
  · next hnone => rw [Cache.load_of_none_selected _ hnone]
  · next hsome =>
    obtain ⟨row, hrow⟩ := Option.isSome_iff_exists.mp (h.resolve_right hsome)
    rw [Store.fetch, hrow]
    rfl

/-- Where there is a row a load takes the values from it. -/
theorem load_of_some {selected : Nat → Slot → Bool} {row : Row} (h : store.row? o.id = some row) :
    o.load store selected = .ok { o with cache := o.cache.load selected row } := by
  rw [load_of_row (.inl (by rw [h]; rfl)), h]
  rfl

private theorem load_missing {selected : Nat → Slot → Bool} (hrow : store.row? o.id = none)
    (hsome : o.cache.fieldsWhere selected ≠ []) :
    o.load store selected = .error (.objectNotFound o.id) := by
  rw [load, if_neg hsome, Store.fetch, hrow]
  rfl

/-- A load succeeds if there is a row, or nothing to be loaded. -/
theorem load_ok_iff {selected : Nat → Slot → Bool} :
    (∃ o', o.load store selected = .ok o') ↔
      (store.row? o.id).isSome = true ∨ o.cache.fieldsWhere selected = [] := by
  constructor
  · rintro ⟨o', h⟩
    rcases load_cases h with ⟨hnone, _⟩ | ⟨row, hrow, _⟩
    · exact .inr hnone
    · exact .inl (by rw [hrow]; rfl)
  · exact fun h => ⟨_, load_of_row h⟩

def Reloads (store : Store) (o : Instance) : Prop :=
  (store.row? o.id).isSome = true ∨ o.schema.planFields o.plan = []

/-- The instance with the fields that its plan selects, as they are in its row, and nothing else. -/
def reloaded (store : Store) (o : Instance) : Instance :=
  { o with cache := .ofPlan o.schema o.plan ((store.row? o.id).getD []) }

private theorem fieldsWhere_selects (hs : o.cache.size = o.schema.fieldCount) :
    o.cache.clearSaved.fieldsWhere (fun n _ => o.schema.selects o.plan n) =
      o.schema.planFields o.plan := by
  rw [Cache.fieldsWhere_number, show o.cache.clearSaved.size = o.schema.fieldCount from hs]
  rfl

/-- A reload that finds its row leaves the fields of the plan as they are in the row. -/
theorem performAll_reload (hs : o.cache.size = o.schema.fieldCount) (h : o.Reloads store) :
    performAll store Effect.reload o = .done (o.reloaded store) () := by
  have hsize : o.cache.clearSaved.size = o.schema.fieldCount := hs
  have hload := load_of_row (o := { o with cache := o.cache.clearSaved })
    (h.imp_right (fieldsWhere_selects hs).trans)
  simp only [Effect.reload, performAll_cons, perform, hload]
  rw [Cache.unload_load_eq_ofPlan hsize rfl]
  rfl

/-- Without the row only the snapshot is gone. -/
theorem performAll_reload_missing (hs : o.cache.size = o.schema.fieldCount)
    (h : ¬ o.Reloads store) :
    performAll store Effect.reload o =
      .failed { o with cache := o.cache.clearSaved } (.objectNotFound o.id) := by
  obtain ⟨hrow, hsome⟩ := not_or.mp h
  have hload := load_missing (o := { o with cache := o.cache.clearSaved })
    (Option.not_isSome_iff_eq_none.mp hrow) (fieldsWhere_selects hs ▸ hsome)
  simp only [Effect.reload, performAll_cons, perform, hload]

private theorem apply_refresh_eq (tx : Transaction) (store : Store) (h : o.state.isRefreshable) :
    o.apply tx store .refresh = (performAll store Effect.reload o).andThen fun o' _ =>
      .done (o'.enter (o.state.afterRefresh tx)) (o.state.afterRefresh tx) := by
  obtain ⟨m, hm, hnext, hfields⟩ := refresh_granted tx o.schema.identity o.state
  rw [if_pos h] at hfields
  rw [apply_of_regular hm (transition_regular (by simp) m hm), hfields, hnext]

/-- A refresh reloads the fields, and the instance goes where a refresh leads it. -/
theorem apply_refresh (tx : Transaction) (hs : o.cache.size = o.schema.fieldCount)
    (hr : o.state.isRefreshable) (h : o.Reloads store) :
    o.apply tx store .refresh =
      .done ((o.reloaded store).enter (o.state.afterRefresh tx)) (o.state.afterRefresh tx) := by
  rw [apply_refresh_eq tx store hr, performAll_reload hs h]
  rfl

private theorem apply_refresh_missing (tx : Transaction) (hs : o.cache.size = o.schema.fieldCount)
    (hr : o.state.isRefreshable) (h : ¬ o.Reloads store) :
    o.apply tx store .refresh =
      .failed { o with cache := o.cache.clearSaved } (.objectNotFound o.id) := by
  rw [apply_refresh_eq tx store hr, performAll_reload_missing hs h]
  rfl

private theorem apply_refresh_idle (tx : Transaction) (store : Store)
    (h : o.state.isRefreshable = false) :
    o.apply tx store .refresh = .done o o.state := by
  obtain ⟨m, hm, hnext, heffects⟩ := refresh_granted tx o.schema.identity o.state
  rw [if_neg (by simp [h])] at heffects
  rw [State.afterRefresh_of_not_isRefreshable tx h] at hnext
  exact apply_of_idle hm heffects hnext

end Instance

/-- The fields are those that the plan selects, as they are in the row, and nothing is known of the
others. No change and no snapshot is left. -/
structure Cache.InSync (schema : Schema) (plan : FetchPlan) (row? : Option Row) (c : Cache) :
    Prop where
  loaded : c.loadedFields = schema.planFields plan
  key : ∀ n, schema.isPrimaryKey n = true → n ∈ c.loadedFields
  current : ∀ n ∈ c.loadedFields, ∃ row, row? = some row ∧ c.slot? n = some (.clean (row.entry n))
  forgotten : ∀ n < schema.fieldCount, n ∉ c.loadedFields → c.slot? n = some .unloaded
  unchanged : c.changes = []
  unsaved : c.saved = none

private theorem Cache.ofPlan_inSync {schema : Schema} {plan : FetchPlan} {row? : Option Row}
    (h : row?.isSome = true ∨ schema.planFields plan = []) :
    (ofPlan schema plan (row?.getD [])).InSync schema plan row? where
  loaded := loadedFields_ofPlan ..
  key n hk := by
    rw [loadedFields_ofPlan]
    exact Schema.mem_planFields.mpr (Schema.selects_of_isPrimaryKey hk)
  current n hn := by
    rw [loadedFields_ofPlan] at hn
    have hsel := Schema.mem_planFields.mp hn
    obtain ⟨row, rfl⟩ := Option.isSome_iff_exists.mp (h.resolve_right (List.ne_nil_of_mem hn))
    refine ⟨row, rfl, ?_⟩
    rw [slot?_ofPlan (Schema.lt_of_selects hsel), if_pos hsel]
    rfl
  forgotten n hlt hn := by
    rw [loadedFields_ofPlan, Schema.mem_planFields] at hn
    rw [slot?_ofPlan hlt, if_neg hn]
  unchanged := changes_ofPlan
  unsaved := rfl

open Instance

private theorem call_refresh {o : Instance} (tx : Transaction) {store : Store}
    (hs : o.cache.size = o.schema.fieldCount) (hr : o.state.isRefreshable = true)
    (h : o.Reloads store) :
    ∃ o', o.call tx .refresh store = .done (store, o') (.state o'.state) ∧
      o'.id = o.id ∧ o'.schema = o.schema ∧ o'.plan = o.plan ∧
      o'.state = o.state.afterRefresh tx ∧ o'.cache = (o.reloaded store).cache := by
  have hnext : o.state.afterRefresh tx ≠ .transient := fun ht => by
    have hrefreshable := (State.afterRefresh_of_isRefreshable tx hr).1
    rw [ht] at hrefreshable
    cases hrefreshable
  refine ⟨(o.reloaded store).enter (o.state.afterRefresh tx), ?_, enter_id _, enter_schema _,
    enter_plan _, enter_state _, enter_cache hnext⟩
  change (((o.apply tx store .refresh).map Answer.state).within (store, ·)) = _
  rw [apply_refresh tx hs hr h, enter_state]
  rfl

private theorem refresh_answered_iff {o : Instance} (tx : Transaction) {store : Store}
    (hs : o.cache.size = o.schema.fieldCount) (hr : o.state.isRefreshable = true) :
    (∃ a, (o.call tx .refresh store).answer = .ok a) ↔ o.Reloads store := by
  constructor
  · rintro ⟨a, ha⟩
    by_contra h
    change (((o.apply tx store .refresh).map Answer.state).within (store, ·)).answer = _ at ha
    rw [apply_refresh_missing tx hs hr h] at ha
    cases ha
  · intro h
    obtain ⟨o', hcall, _⟩ := call_refresh tx hs hr h
    exact ⟨_, congrArg (·.answer) hcall⟩

/-- A refresh follows the row completely. It comes to its end if there is a row or the plan selects
nothing, and then the cache is in step with the row, whatever it was before; nothing is left to be
written, and a second refresh finds nothing to change. In any other state nothing happens. -/
theorem refresh_resynchronises (o : Instance) (hs : o.cache.size = o.schema.fieldCount)
    (tx : Transaction) (store : Store) :
    (o.state.isRefreshable = true →
      ((∃ a, (o.call tx .refresh store).answer = .ok a) ↔
        (store.row? o.id).isSome = true ∨ o.schema.planFields o.plan = []) ∧
      ∀ a, (o.call tx .refresh store).answer = .ok a →
        ∃ o', o.call tx .refresh store = .done (store, o') (.state o'.state) ∧
          o'.id = o.id ∧ o'.schema = o.schema ∧ o'.plan = o.plan ∧
          o'.cache.InSync o.schema o.plan (store.row? o.id) ∧ o'.state.isDirty = false ∧
          ∀ tx' store', store'.row? o.id = store.row? o.id →
            ∃ o'', o'.call tx' .refresh store' = .done (store', o'') (.state o''.state) ∧
              o''.cache = o'.cache) ∧
    (o.state.isRefreshable = false →
      o.call tx .refresh store = .done (store, o) (.state o.state)) := by
  refine ⟨fun hr => ?_, fun hr => ?_⟩
  · refine ⟨refresh_answered_iff tx hs hr, fun a ha => ?_⟩
    have hrow := (refresh_answered_iff tx hs hr).mp ⟨a, ha⟩
    obtain ⟨o', hcall, hid, hschema, hplan, hstate, hcache⟩ := call_refresh tx hs hr hrow
    obtain ⟨hagain, hclean⟩ := State.afterRefresh_of_isRefreshable tx hr
    refine ⟨o', hcall, hid, hschema, hplan, hcache ▸ Cache.ofPlan_inSync hrow, hstate ▸ hclean, ?_⟩
    intro tx' store' hsame
    have hsize : o'.cache.size = o'.schema.fieldCount := by
      rw [hcache, hschema]
      exact Cache.size_ofPlan ..
    have hrow' : o'.Reloads store' := by
      rw [Reloads, hid, hschema, hplan, hsame]
      exact hrow
    obtain ⟨o'', hcall', _, _, _, _, hcache'⟩ := call_refresh tx' hsize (hstate ▸ hagain) hrow'
    refine ⟨o'', hcall', hcache'.trans ?_⟩
    rw [hcache, reloaded, reloaded, hid, hschema, hplan, hsame]
  · change (((o.apply tx store .refresh).map Answer.state).within (store, ·)) = _
    rw [apply_refresh_idle tx store hr]
    rfl

def scribbled : Instance where
  id := .ofNat 7
  schema := ⟨"Book", .application, [.key "isbn", .plain "title", .onDemand "blurb"]⟩
  plan := .standard
  cache :=
    ⟨[.clean (.text "0-441-17271-7"), .written (.text "scribble"), .clean (.text "long")],
      some [.clean (.text "0-441-17271-7"), .clean (.text "Dune"), .clean (.text "long")]⟩
  state := .persistentDirty
  enlisted := true
  connected := true

def shelf : Store := ⟨[(.ofNat 7, [.text "0-441-17271-7"])]⟩

/-- The title of a book was scribbled over, and its row ends after the key. -/
theorem refresh_resynchronises_scribbled :
    (scribbled.call (.opened .standard) .refresh shelf).answer = .ok (.state .persistentClean) ∧
      ∃ o', scribbled.call (.opened .standard) .refresh shelf =
          .done (shelf, o') (.state o'.state) ∧
        o'.cache.InSync scribbled.schema .standard (some [.text "0-441-17271-7"]) ∧
        o'.cache.slot? 1 = some (.clean .null) ∧ o'.state.isDirty = false := by
  obtain ⟨hrefresh, _⟩ := refresh_resynchronises scribbled rfl (.opened .standard) shelf
  obtain ⟨o', hcall, _, _, _, hsync, hclean, _⟩ := (hrefresh rfl).2 (.state .persistentClean) rfl
  refine ⟨rfl, o', hcall, hsync, ?_, hclean⟩
  have hloaded : 1 ∈ o'.cache.loadedFields := by
    rw [hsync.loaded]
    decide
  obtain ⟨row, hrow, hslot⟩ := hsync.current 1 hloaded
  cases hrow
  exact hslot

end Lifecycle
