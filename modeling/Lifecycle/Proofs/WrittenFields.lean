import Mathlib.Logic.Function.Basic
import Lifecycle.Proofs.Commit

/-! The fields that were written in a transaction. Whatever is read or loaded in between, an
instance carries the last value of each written field as a change, and no other change, up to the
commit that writes them over its row. -/
namespace Lifecycle

/-- The written fields hold the values that were written, and no other field is changed. -/
structure Cache.Records (written : Nat → Option Value) (c : Cache) : Prop where
  kept : ∀ n v, written n = some v → c.slot? n = some (.written v)
  clean : c.Each fun n s => written n = none → s.dirty = false

/-- One more value is written. -/
theorem Cache.Records.put {c : Cache} {written : Nat → Option Value} {n : Nat}
    (h : c.Records written) (hn : n < c.size) (v : Value) :
    (c.put n (.written v)).Records (Function.update written n (some v)) := by
  constructor
  · intro m u hu
    by_cases hm : m = n
    · subst hm
      rw [Function.update_self] at hu
      cases hu
      exact slot?_put_self hn
    · rw [Function.update_of_ne hm] at hu
      rw [slot?_put, if_neg (Ne.symm hm)]
      exact h.kept m u hu
  · intro m s hs hw
    rw [slot?_put] at hs
    by_cases hm : m = n
    · subst hm
      rw [Function.update_self] at hw
      cases hw
    · rw [if_neg (Ne.symm hm)] at hs
      rw [Function.update_of_ne hm] at hw
      exact h.clean m s hs hw

namespace Instance
variable {tx : Transaction} {store : Store} {r : Request} {o : Instance} {schema : Schema}
  {written : Nat → Option Value} {n : Nat} {v : Value}

structure Carries (schema : Schema) (written : Nat → Option Value) (o : Instance) : Prop where
  schema : o.schema = schema
  state : o.state = .persistentDirty ∨
    (o.state.isPersistent = true ∧ o.state.isUnchanged = true) ∧ ∀ n, written n = none
  kept : ∀ n v, written n = some v → o.cache.slot? n = some (.written v)
  clean : o.cache.Each fun n s => written n = none → s.dirty = false

namespace Carries

private theorem clean_survives (written : Nat → Option Value) (row? : Option Row) :
    SurvivesLoading row? fun n s => written n = none → s.dirty = false :=
  ⟨fun _ _ => rfl, fun _ _ h => h, fun _ _ _ _ => rfl⟩

private theorem isPersistent (h : o.Carries schema written) : o.state.isPersistent = true := by
  rcases h.state with hs | ⟨hs, _⟩
  · rw [hs]
    rfl
  · exact hs.1

/-- What is entered from a row has no change. -/
theorem found {id : ObjectId} (h : Instance.hollow store id schema = .ok o) :
    o.Carries schema fun _ => none := by
  obtain ⟨row, hrow, rfl⟩ := hollow_eq_ok h
  refine ⟨rfl, .inr ⟨⟨rfl, rfl⟩, fun _ => rfl⟩, nofun, ?_⟩
  intro n s hs _
  rw [Cache.slot?_load] at hs
  obtain ⟨t, ht, rfl⟩ := Option.map_eq_some_iff.mp hs
  split
  · rfl
  · simp only [Cache.slot?, Cache.unloaded] at ht
    rw [List.getElem?_replicate] at ht
    split at ht <;> cases ht
    rfl

private theorem worked {cache : Cache} {es : List Effect} {answer : Except Failure Unit}
    (h : o.Carries schema written) (he : ∀ e ∈ es, e.isCrossing = false) (hr : .restoreFields ∉ es)
    (hs : o.state = .persistentDirty → ∀ e ∈ es, e.sparesLoaded = true)
    (hp : performAll store es o = ⟨{ o with cache }, answer⟩) :
    Carries schema written { o with cache } := by
  have hcache : (performAll store es o).after.cache = cache := by rw [hp]
  refine ⟨h.schema, h.state, ?_, ?_⟩
  · intro n v hw
    rcases h.state with hstate | ⟨_, hnone⟩
    · rw [← hcache]
      exact performAll_loaded (hs hstate) (h.kept n v hw) rfl
    · rw [hnone n] at hw
      cases hw
  · rw [← hcache]
    exact performAll_each (clean_survives written _) he hr h.clean

private theorem enter {t : State} (h : o.Carries schema written) (hp : t.isPersistent = true)
    (hu : (∀ n, written n = none) → t.isUnchanged = true ∨ t = .persistentDirty)
    (hd : o.state = .persistentDirty → t = .persistentDirty) :
    (o.enter t).Carries schema written := by
  have ht : t ≠ .transient := by
    rintro rfl
    cases hp
  refine ⟨(enter_schema t).trans h.schema, ?_, ?_, ?_⟩
  · rw [enter_state]
    rcases h.state with hs | ⟨_, hnone⟩
    · exact .inl (hd hs)
    · rcases hu hnone with hu | hu
      · exact .inr ⟨⟨hp, hu⟩, hnone⟩
      · exact .inl hu
  · rw [enter_cache ht]
    exact h.kept
  · rw [enter_cache ht]
    exact h.clean

private theorem along (h : o.Carries schema written) (hb : r ≠ .begin) (hroll : r ≠ .rollback)
    (hm : (transition tx o.schema.identity r o.state).Allows fun m =>
      (o.state.isPersistent → m.next.isPersistent) ∧
        (o.state.isPersistent → o.state.isUnchanged → m.next.isUnchanged) ∧
        (o.state = .persistentDirty →
          m.next = .persistentDirty ∧ m.effects.all (·.sparesLoaded) = true)) :
    (o.apply tx store r).after.Carries schema written := by
  rcases apply_cases tx store o hb with ⟨f, ha⟩ | ⟨m, cache, hgranted, _, hwork⟩
  · rw [ha]
    exact h
  · obtain ⟨hpersistent, hunchanged, hdirty⟩ := hm m hgranted
    have hworked : ∀ answer, performAll store m.onFields o = ⟨{ o with cache }, answer⟩ →
        Carries schema written { o with cache } := by
      intro answer hp
      refine worked h (fun _ he => Move.isCrossing_of_mem_onFields he) ?_ ?_ hp
      · intro he
        exact restoreFields_only_by_rollback hroll m hgranted
          (Move.mem_effects_of_mem_onFields he)
      · intro hs e he
        exact List.all_eq_true.mp (hdirty hs).2 e (Move.mem_effects_of_mem_onFields he)
    rcases hwork with ⟨f, hp, ha⟩ | ⟨hp, ha⟩
    · rw [ha]
      exact hworked _ hp
    · rw [ha]
      refine (hworked _ hp).enter (hpersistent h.isPersistent) ?_ fun hs => (hdirty hs).1
      intro _
      rcases h.state with hs | ⟨hs, _⟩
      · exact .inr (hdirty hs).1
      · exact .inl (hunchanged hs.1 hs.2)

private theorem apply (h : o.Carries schema written) (hr : r.isLoading) :
    (o.apply tx store r).after.Carries schema written := by
  refine h.along ?_ ?_ (next_of_loading hr)
  · rintro rfl
    cases hr
  · rintro rfl
    cases hr

/-- Whoever was changed is not evicted. -/
theorem evict (h : o.Carries schema written) (tx : Transaction) (store : Store) :
    (o.apply tx store .evict).after.Carries schema written :=
  h.along (by simp) (by simp) next_of_evict

private theorem readField (h : o.Carries schema written) :
    (o.readField tx store n).after.Carries schema written := by
  -- A read loads its field only if it is missing, and a written field is not.
  refine readField_kept (P := Carries schema written) (T := Carries schema written) h
    (Outcome.meets_self.mpr (h.apply rfl)) (fun _ ha => ha) ?_
  intro a a' hmissing hl ha
  have hkept : ∀ m v, written m = some v → a'.cache.slot? m = some (.written v) :=
    fun m v hw => load_missing_spares hmissing hl (ha.kept m v hw) rfl
  have hclean := load_each (clean_survives written _) ha.clean hl
  rcases load_cases hl with ⟨_, rfl⟩ | ⟨_, _, rfl⟩
  · exact ha
  · exact ⟨ha.schema, ha.state, hkept, hclean⟩

private theorem apply_writeField (h : o.Carries schema written) (ha : tx.active = true)
    (store : Store) :
    ∃ a s, o.apply tx store .writeField = .done a s ∧ a.state = .persistentDirty ∧
      a.Carries schema written := by
  -- Within a transaction the state never stands in the way of a write, and the row is not needed.
  obtain ⟨m, hm, hnext, heffects⟩ := writeField_granted o.schema.identity ha
    (h.state.imp_right And.left)
  have hspares : ∀ e ∈ m.effects, e.sparesLoaded = true ∧ e.isLoad = false := by
    simpa using heffects
  obtain ⟨s, hs⟩ := apply_ok_of_loadless store hm fun e he => (hspares e he).2
  rcases apply_cases (r := .writeField) tx store o (by simp) with
    ⟨f, happ⟩ | ⟨m', cache, hm', _, ⟨f, _, happ⟩ | ⟨hp, happ⟩⟩
  · rw [happ] at hs
    cases hs
  · rw [happ] at hs
    cases hs
  · rw [hm] at hm'
    cases hm'
    have hworked : Carries schema written { o with cache } :=
      worked h (fun _ he => Move.isCrossing_of_mem_onFields he)
        (fun he => restoreFields_only_by_rollback (by simp) m hm
          (Move.mem_effects_of_mem_onFields he))
        (fun _ e he => (hspares e (Move.mem_effects_of_mem_onFields he)).1) hp
    refine ⟨_, _, happ, (enter_state _).trans hnext, hworked.enter ?_ ?_ fun _ => hnext⟩
    · rw [hnext]
      rfl
    · exact fun _ => .inr hnext

private theorem put (h : o.Carries schema written) (hs : o.state = .persistentDirty)
    (hn : n < o.cache.size) (v : Value) :
    Carries schema (Function.update written n (some v))
      { o with cache := o.cache.put n (.written v) } :=
  have hrecords := Cache.Records.put ⟨h.kept, h.clean⟩ hn v
  ⟨h.schema, .inl hs, hrecords.kept, hrecords.clean⟩

/-- Within a transaction a field outside the key can always be written, and then it carries the new
value. -/
theorem writeField (h : o.Carries schema written) (ha : tx.active = true) (hsized : o.Sized)
    (hn : n < schema.fieldCount) (hk : schema.isPrimaryKey n = false) (store : Store) (v : Value) :
    ∃ a, o.writeField tx store n v = .done a () ∧
      a.Carries schema (Function.update written n (some v)) := by
  obtain ⟨a, s, happ, hstate, hcarries⟩ := h.apply_writeField ha store
  have hsize : a.cache.size = a.schema.fieldCount := by
    have hs : (o.apply tx store .writeField).after.Sized := Sized.keptByWork.applied hsized
    rw [happ] at hs
    exact hs.slots
  refine ⟨_, ?_, hcarries.put hstate (hsize ▸ hcarries.schema.symm ▸ hn) v⟩
  rw [Instance.writeField, ifDeclared, if_pos (h.schema.symm ▸ hn),
    if_neg (by simp [h.schema, hk]), happ]
  rfl

/-- Without a row a commit that succeeds had nothing to write. -/
theorem commitsRow_none {after : Option Row} (h : o.Carries schema written)
    (hc : o.CommitsRow none after) : after = none ∧ ∀ n, written n = none := by
  rw [CommitsRow] at hc
  rcases h.state with hs | ⟨⟨hp, hu⟩, hnone⟩
  · rw [hs] at hc
    rcases hc with ⟨_, hafter, hchanges⟩ | ⟨_, _, hrow, _⟩
    · refine ⟨hafter, fun n => ?_⟩
      cases hw : written n with
      | none => rfl
      | some v =>
        have hmem : (n, v) ∈ o.cache.changes :=
          Cache.mem_changes.mpr ⟨_, h.kept n v hw, rfl, rfl⟩
        rw [hchanges] at hmem
        cases hmem
    · cases hrow
  · refine ⟨?_, hnone⟩
    revert hc hp hu
    cases o.state <;> simp [State.isPersistent, State.isUnchanged]

/-- A commit writes the values of the written fields over the row, and leaves every other entry as
it was. -/
theorem commitsRow {row : Row} {after : Option Row} (h : o.Carries schema written)
    (hc : o.CommitsRow (some row) after) :
    ∃ row', after = some row' ∧ ∀ n, row'.entry n = (written n).getD (row.entry n) := by
  rw [CommitsRow] at hc
  rcases h.state with hs | ⟨⟨hp, hu⟩, hnone⟩
  · rw [hs] at hc
    rcases hc with ⟨hrow, _⟩ | ⟨row₀, row', hrow, hafter, hentry⟩
    · cases hrow
    · cases hrow
      refine ⟨row', hafter, fun n => ?_⟩
      rw [hentry]
      cases hw : written n with
      | some v =>
        simp [Cache.isDirty, Cache.value, h.kept n v hw, Slot.written]
      | none =>
        have hd : o.cache.isDirty n = false := by
          rw [Cache.isDirty]
          cases hs : o.cache.slot? n with
          | none => rfl
          | some s => exact h.clean n s hs hw
        simp [hd]
  · have hsame : after = some row := by
      revert hc hp hu
      cases o.state <;> simp [State.isPersistent, State.isUnchanged]
    exact ⟨row, hsame, fun n => by simp [hnone n]⟩

end Carries

namespace Call

/-- Fields are read and loaded at will, and those of `own` are written. -/
def StaysWithin (schema : Schema) (own : Nat → Prop) : Call → Prop
  | .read _ | .retrieve _ | .retrieveWith _ => True
  | .write field _ => ∃ n, field.resolve schema = .ok n ∧ own n
  | _ => False

/-- A call that keeps within its fields is ordinary, and neither flushes nor detaches. -/
theorem StaysWithin.quiet {own : Nat → Prop} {c : Call} (h : c.StaysWithin schema own) :
    c.isOrdinary = true ∧ c ≠ .flush ∧ c ≠ .detach := by
  revert h
  cases c <;> simp [StaysWithin, isOrdinary]

def writes (schema : Schema) (c : Call) (written : Nat → Option Value) : Nat → Option Value :=
  match c with
  | .write field v =>
    match field.resolve schema with
    | .ok n => Function.update written n (some v)
    | .error _ => written
  | _ => written

/-- Such a call writes no fields but its own. -/
theorem StaysWithin.writes_own {own : Nat → Prop} {c : Call} (h : c.StaysWithin schema own)
    (hw : ∀ n, written n ≠ none → own n) :
    ∀ n, c.writes schema written n ≠ none → own n := by
  cases c with
  | write field v =>
    obtain ⟨m, hm, hmine⟩ := h
    intro n hn
    simp only [Call.writes, hm] at hn
    by_cases hnm : n = m
    · exact hnm ▸ hmine
    · rw [Function.update_of_ne hnm] at hn
      exact hw n hn
  | _ => exact hw

end Call

def Writable (schema : Schema) (own : Nat → Prop) : Prop :=
  ∀ n, own n → n < schema.fieldCount ∧ schema.isPrimaryKey n = false

/-- Every such call carries the changes on, together with what it writes. -/
theorem Carries.call {own : Nat → Prop} {c : Call} (h : o.Carries schema written)
    (ha : tx.active = true) (hsized : o.Sized) (hown : Writable schema own)
    (hc : c.StaysWithin schema own) (store : Store) :
    (o.call tx c store).after.2.Carries schema (c.writes schema written) := by
  cases c with
  | read field =>
    exact withField_kept (P := Carries schema written) h fun _ _ => h.readField
  | write field v =>
    obtain ⟨n, hn, hmine⟩ := hc
    obtain ⟨hdeclared, hkey⟩ := hown n hmine
    obtain ⟨a, hwrite, hcarries⟩ := h.writeField ha hsized hdeclared hkey store v
    rw [call_write (h.schema.symm ▸ hn) hwrite]
    simp only [Call.writes, hn]
    exact hcarries
  | retrieve fetchPlanOnly | retrieveWith plan => exact h.apply rfl
  | _ => cases hc

end Instance

end Lifecycle
