import Lifecycle.Instance.Access
import Lifecycle.Proofs.Transition

/-! Properties of single fields, and the effects that keep them. Whatever holds of a forgotten
field and of one that was just loaded survives all work on the fields except the return to a
snapshot. -/
namespace Lifecycle

namespace Cache
variable {R : Nat → Slot → Prop} {c : Cache}

/-- Nothing but the fields and the snapshot tells caches apart. -/
theorem eq_of_slots {d : Cache} (hslots : ∀ n, c.slot? n = d.slot? n) (hsaved : c.saved = d.saved) :
    c = d := by
  obtain ⟨slots, saved⟩ := c
  obtain ⟨slots', saved'⟩ := d
  obtain rfl : slots = slots' := List.ext_getElem? hslots
  obtain rfl : saved = saved' := hsaved
  rfl

def Each (R : Nat → Slot → Prop) (c : Cache) : Prop :=
  ∀ n s, c.slot? n = some s → R n s

/-- A property of all fields survives an update that keeps it for each. -/
theorem Each.update {p : Nat → Slot → Bool} {f : Nat → Slot → Slot} (h : c.Each R)
    (hf : ∀ n s, p n s → R n s → R n (f n s)) : (c.update p f).Each R := by
  intro n s hs
  rw [slot?_update] at hs
  obtain ⟨s', hs', rfl⟩ := Option.map_eq_some_iff.mp hs
  split
  · next hp => exact hf n s' hp (h n s' hs')
  · exact h n s' hs'

/-- It survives a new slot that has it. -/
theorem Each.put {n : Nat} {s : Slot} (h : c.Each R) (hs : R n s) : (c.put n s).Each R := by
  intro m t ht
  rw [slot?_put] at ht
  split at ht
  · next hn =>
    obtain ⟨_, _, rfl⟩ := Option.map_eq_some_iff.mp ht
    exact hn ▸ hs
  · exact h m t ht

end Cache

/-- The property holds of a forgotten field, and of one that was just loaded from the row if there
is one. It does not depend on whether the field is loaded. -/
structure SurvivesLoading (row? : Option Row) (R : Nat → Slot → Prop) : Prop where
  unloaded : ∀ n, R n .unloaded
  markUnloaded : ∀ n s, R n s → R n { s with loaded := false }
  loaded : ∀ n row, row? = some row → R n (.clean (row.getD n .null))

namespace Instance
variable {store : Store} {o o' : Instance} {e : Effect} {R : Nat → Slot → Prop}

private theorem fetch_eq_ok {id : ObjectId} {row : Row} (h : store.fetch id = .ok row) :
    store.row? id = some row := by
  simp only [Store.fetch] at h
  split at h <;> cases h
  assumption

/-- A new instance is transient, and all its values are clean. -/
theorem create_eq_ok {id : ObjectId} {schema : Schema} {values : List Value}
    (h : create id schema values = .ok o) :
    o = ⟨id, schema, .standard, .ofValues values, .transient, false, true⟩ := by
  simp only [create] at h
  split at h <;> cases h
  rfl

/-- An instance is created only of a value for each field. -/
theorem create_length {id : ObjectId} {schema : Schema} {values : List Value}
    (h : create id schema values = .ok o) : values.length = schema.fieldCount := by
  simp only [create] at h
  split at h <;> cases h
  assumption

/-- A hollow instance has the key from its row, and nothing else. -/
theorem hollow_eq_ok {id : ObjectId} {schema : Schema} (h : hollow store id schema = .ok o) :
    ∃ row, store.row? id = some row ∧
      o = ⟨id, schema, .standard,
        (Cache.unloaded schema.fieldCount).load (fun n _ => schema.isPrimaryKey n) row,
        .hollow, false, true⟩ := by
  simp only [hollow] at h
  cases hf : store.fetch id with
  | error f =>
    rw [hf] at h
    cases h
  | ok row =>
    rw [hf] at h
    cases h
    exact ⟨row, fetch_eq_ok hf, rfl⟩

/-- Every row can be found as a hollow instance. -/
theorem hollow_of_row {id : ObjectId} {row : Row} (schema : Schema)
    (h : store.row? id = some row) : ∃ o, hollow store id schema = .ok o := by
  rw [hollow, Store.fetch, h]
  exact ⟨_, rfl⟩

/-- A load changes nothing but the cache. -/
theorem load_cases {selected : Nat → Slot → Bool} (h : o.load store selected = .ok o') :
    (o.cache.fieldsWhere selected = [] ∧ o' = o) ∨
      ∃ row, store.row? o.id = some row ∧ o' = { o with cache := o.cache.load selected row } := by
  simp only [load] at h
  split at h
  · next he => cases h; exact .inl ⟨he, rfl⟩
  · cases hf : store.fetch o.id with
    | error f => rw [hf] at h; cases h
    | ok row => rw [hf] at h; cases h; exact .inr ⟨row, fetch_eq_ok hf, rfl⟩

/-- A load keeps what survives loading. -/
theorem load_each {selected : Nat → Slot → Bool} (hR : SurvivesLoading (store.row? o.id) R)
    (h : o.cache.Each R) (hl : o.load store selected = .ok o') : o'.cache.Each R := by
  rcases load_cases hl with ⟨_, rfl⟩ | ⟨row, hrow, rfl⟩
  · exact h
  · exact h.update fun n _ _ _ => hR.loaded n row hrow

/-- Work on the fields changes nothing but the cache. -/
theorem perform_frame (he : e.isCrossing = false) (h : o.perform store e = .ok o') :
    o' = { o with cache := o'.cache } := by
  cases e <;> simp only [Effect.isCrossing, reduceCtorEq] at he <;> simp only [perform] at h
  case loadUnloadedFields | loadUnloadedFieldsInFetchPlan | loadUnloadedFieldsInPlan
      | refreshLoadedFields | refreshFieldsInFetchPlan =>
    rcases load_cases h with ⟨_, rfl⟩ | ⟨_, _, rfl⟩ <;> rfl
  all_goals cases h; rfl

/-- No effect touches the state. -/
theorem perform_state (h : o.perform store e = .ok o') : o'.state = o.state := by
  cases e <;> simp only [perform] at h
  case loadUnloadedFields | loadUnloadedFieldsInFetchPlan | loadUnloadedFieldsInPlan
      | refreshLoadedFields | refreshFieldsInFetchPlan =>
    rcases load_cases h with ⟨_, rfl⟩ | ⟨_, _, rfl⟩ <;> rfl
  all_goals cases h; rfl

/-- The snapshot stays where the effect says so. -/
theorem perform_saved (he : e.keepsSnapshot) (h : o.perform store e = .ok o') :
    o'.cache.saved = o.cache.saved := by
  cases e <;> simp only [Effect.keepsSnapshot, Bool.false_eq_true] at he <;>
    simp only [perform] at h
  case loadUnloadedFields | loadUnloadedFieldsInFetchPlan | loadUnloadedFieldsInPlan
      | refreshLoadedFields | refreshFieldsInFetchPlan =>
    rcases load_cases h with ⟨_, rfl⟩ | ⟨_, _, rfl⟩ <;> rfl
  all_goals cases h; rfl

private theorem perform_each (hR : SurvivesLoading (store.row? o.id) R) (he : e.isCrossing = false)
    (hs : e ≠ .restoreFields) (h : o.cache.Each R) (hp : o.perform store e = .ok o') :
    o'.cache.Each R := by
  cases e <;> simp only [Effect.isCrossing, reduceCtorEq] at he <;> simp only [perform] at hp
  case loadUnloadedFields | loadUnloadedFieldsInFetchPlan | loadUnloadedFieldsInPlan
      | refreshLoadedFields | refreshFieldsInFetchPlan =>
    exact load_each hR h hp
  case restoreFields => exact absurd rfl hs
  case clearNonPrimaryKeyFields | unloadNonFetchPlanFields =>
    cases hp
    exact h.update fun n _ _ _ => hR.unloaded n
  case clearLoadedFlags =>
    cases hp
    exact h.update fun n s _ hns => hR.markUnloaded n s hns
  case saveFields | clearSavedFields => cases hp; exact h

/-- Work stops at the first effect that fails. -/
theorem performAll_cons (es : List Effect) :
    performAll store (e :: es) o = match o.perform store e with
      | .ok o' => performAll store es o'
      | .error f => .failed o f := rfl

theorem performAll_singleton (store : Store) (e : Effect) (o : Instance) :
    performAll store [e] o = .change o (o.perform store e) := by
  rw [performAll_cons]
  cases o.perform store e <;> rfl

theorem perform_of_singleton (h : performAll store [e] o = .done o' ()) :
    o.perform store e = .ok o' := by
  rw [performAll_cons] at h
  split at h
  · next a ha =>
    cases h
    exact ha
  · cases h

/-- Work is done one part after the other. -/
theorem performAll_append (es fs : List Effect) :
    performAll store (es ++ fs) o = (performAll store es o).andThen fun o' _ =>
      performAll store fs o' := by
  induction es generalizing o with
  | nil => rfl
  | cons e es ih =>
    simp only [List.cons_append, performAll_cons]
    cases o.perform store e with
    | ok o' => exact ih
    | error f => rfl

/-- What each of the effects keeps, all of them in order keep. -/
theorem performAll_kept {P : Instance → Prop} {es : List Effect}
    (hP : ∀ e ∈ es, ∀ a a', a.perform store e = .ok a' → P a → P a') (h : P o) :
    P (performAll store es o).after := by
  induction es generalizing o with
  | nil => exact h
  | cons e es ih =>
    simp only [List.forall_mem_cons] at hP
    rw [performAll_cons]
    cases hp : o.perform store e with
    | ok o' => exact ih hP.2 (hP.1 o o' hp h)
    | error f => exact h

/-- Work on the fields changes the cache and nothing else. -/
theorem performAll_frame (store : Store) (o : Instance) {es : List Effect}
    (he : ∀ e ∈ es, e.isCrossing = false) :
    (performAll store es o).after = { o with cache := (performAll store es o).after.cache } := by
  induction es generalizing o with
  | nil => rfl
  | cons e es ih =>
    simp only [List.forall_mem_cons] at he
    rw [performAll_cons]
    cases hp : o.perform store e with
    | ok o' =>
      have ho' := perform_frame he.1 hp
      simp only
      rw [ih o' he.2, ho']
    | error f => rfl

/-- Work without a load does not fail. -/
theorem performAll_ok (store : Store) (o : Instance) {es : List Effect}
    (h : ∀ e ∈ es, e.isLoad = false) : (performAll store es o).answer = .ok () := by
  induction es generalizing o with
  | nil => rfl
  | cons e es ih =>
    simp only [List.forall_mem_cons] at h
    rw [performAll_cons]
    have hp : ∃ o', o.perform store e = .ok o' := by
      cases e <;> first | exact ⟨_, rfl⟩ | cases h.1
    obtain ⟨o', ho'⟩ := hp
    rw [ho']
    exact ih o' h.2

private theorem load_spares {selected : Nat → Slot → Bool} {n : Nat} {s : Slot}
    (hl : o.load store selected = .ok o') (hs : o.cache.slot? n = some s)
    (hn : selected n s = false) : o'.cache.slot? n = some s := by
  rcases load_cases hl with ⟨_, rfl⟩ | ⟨row, _, rfl⟩
  · exact hs
  · rw [Cache.slot?_load, hs]
    simp [hn]

/-- Loading a field that is missing leaves the loaded ones alone. -/
theorem load_missing_spares {n m : Nat} {s : Slot} (hm : o.cache.isLoaded m = false)
    (hl : o.load store (fun k _ => k = m) = .ok o') (hs : o.cache.slot? n = some s)
    (hn : s.loaded = true) : o'.cache.slot? n = some s := by
  refine load_spares hl hs (decide_eq_false ?_)
  rintro rfl
  rw [Cache.isLoaded, hs, Option.any_some, hn] at hm
  cases hm

/-- An effect that spares what is loaded leaves its slot as it is. -/
theorem perform_loaded {n : Nat} {s : Slot} (he : e.sparesLoaded)
    (hp : o.perform store e = .ok o') (hs : o.cache.slot? n = some s) (hl : s.loaded = true) :
    o'.cache.slot? n = some s := by
  cases e <;> simp only [Effect.sparesLoaded, Effect.keepsLoaded, Bool.false_eq_true] at he <;>
    simp only [perform] at hp
  case loadUnloadedFields | loadUnloadedFieldsInFetchPlan | loadUnloadedFieldsInPlan =>
    exact load_spares hp hs (by simp [hl])
  case disconnect =>
    cases hp
    change o.cache.markAllLoaded.slot? n = some s
    obtain ⟨value, loaded, dirty⟩ := s
    cases hl
    simp only [Cache.slot?] at hs
    simp [Cache.slot?, Cache.markAllLoaded, hs]
  all_goals
    cases hp
    exact hs

/-- Where what is loaded is spared, a loaded field stays as it is. -/
theorem performAll_loaded {es : List Effect} {n : Nat} {s : Slot}
    (he : ∀ e ∈ es, e.sparesLoaded = true) (hs : o.cache.slot? n = some s)
    (hl : s.loaded = true) : (performAll store es o).after.cache.slot? n = some s :=
  performAll_kept (P := fun a => a.cache.slot? n = some s)
    (fun e hmem _ _ hp ha => perform_loaded (he e hmem) hp ha hl) hs

/-- Work on the fields keeps what survives loading, unless it goes back to a snapshot. -/
theorem performAll_each {es : List Effect} (hR : SurvivesLoading (store.row? o.id) R)
    (he : ∀ e ∈ es, e.isCrossing = false) (hs : .restoreFields ∉ es) (h : o.cache.Each R) :
    (performAll store es o).after.cache.Each R := by
  induction es generalizing o with
  | nil => exact h
  | cons e es ih =>
    simp only [List.forall_mem_cons] at he
    simp only [List.mem_cons, not_or] at hs
    rw [performAll_cons]
    cases hp : o.perform store e with
    | ok o' =>
      have hid : o'.id = o.id := by rw [perform_frame he.1 hp]
      exact ih (hid ▸ hR) he.2 hs.2 (perform_each hR he.1 (fun h => hs.1 h.symm) h hp)
    | error f => exact h

private theorem reload_eq_done (h : performAll store Effect.reload o = .done o' ()) :
    ∃ a, { o with cache := o.cache.clearSaved }.load store (fun n _ => o.schema.selects o.plan n) =
        .ok a ∧
      o' = { a with cache := a.cache.unload fun n => !a.schema.selects a.plan n } := by
  rw [Effect.reload, performAll_cons, perform] at h
  simp only at h
  rw [performAll_cons] at h
  split at h
  · next a ha =>
    cases h
    exact ⟨a, ha, rfl⟩
  · cases h

/-- After a refresh every field is fresh or forgotten, whatever it was before. -/
theorem reload_each (hR : SurvivesLoading (store.row? o.id) R)
    (h : performAll store Effect.reload o = .done o' ()) : o'.cache.Each R := by
  obtain ⟨b, hb, rfl⟩ := reload_eq_done h
  intro n s hs
  rw [Cache.slot?_unload] at hs
  obtain ⟨t, ht, rfl⟩ := Option.map_eq_some_iff.mp hs
  rcases load_cases hb with ⟨hnone, rfl⟩ | ⟨row, hrow, rfl⟩
  · split
    · exact hR.unloaded n
    · next hsel =>
      -- a selected field would have been listed
      have hmem : n ∈ Cache.fieldsWhere o.cache.clearSaved fun n _ => o.schema.selects o.plan n :=
        Cache.mem_fieldsWhere.mpr ⟨t, ht, by simpa using hsel⟩
      rw [hnone] at hmem
      cases hmem
  · split
    · exact hR.unloaded n
    · next hsel =>
      rw [Cache.slot?_load] at ht
      obtain ⟨u, _, rfl⟩ := Option.map_eq_some_iff.mp ht
      rw [if_pos (by simpa using hsel)]
      exact hR.loaded n row hrow

end Instance

end Lifecycle
