import Lifecycle.Proofs.Failures
import Lifecycle.Proofs.History

/-! What every instance has in memory. There is a slot for each field of the class, and whoever has
no row to load from holds all its values. -/
namespace Lifecycle

namespace Cache
variable {c : Cache}

def IsFull (c : Cache) : Prop :=
  c.Each fun _ s => s.loaded = true

private theorem isFull_ofValues (values : List Value) : (ofValues values).IsFull := by
  intro n s hs
  simp only [slot?, ofValues, List.getElem?_map, Option.map_eq_some_iff] at hs
  obtain ⟨v, _, rfl⟩ := hs
  rfl

/-- After that no field is missing. -/
theorem isFull_markAllLoaded (c : Cache) : c.markAllLoaded.IsFull := by
  intro n s hs
  simp only [slot?, markAllLoaded, List.getElem?_map, Option.map_eq_some_iff] at hs
  obtain ⟨t, _, rfl⟩ := hs
  rfl

private theorem IsFull.clearDirty (h : c.IsFull) : c.clearDirty.IsFull := by
  intro n s hs
  simp only [slot?, Cache.clearDirty, List.getElem?_map, Option.map_eq_some_iff] at hs
  obtain ⟨t, ht, rfl⟩ := hs
  exact h n t ht

/-- A full cache lacks none of its fields. -/
theorem IsFull.isLoaded {n : Nat} (h : c.IsFull) (hn : n < c.size) : c.isLoaded n = true := by
  have hs : c.slot? n = some c.slots[n] := List.getElem?_eq_getElem hn
  rw [Cache.isLoaded, hs]
  exact h n _ hs

/-- A field is loaded if it has a slot that says so. -/
theorem isLoaded_eq_true {n : Nat} :
    c.isLoaded n = true ↔ ∃ s, c.slot? n = some s ∧ s.loaded = true :=
  Option.any_eq_true _ _

/-- After a load the selected fields are loaded, and those that were. -/
theorem isLoaded_load (c : Cache) (selected : Nat → Slot → Bool) (row : Row) (n : Nat) :
    (c.load selected row).isLoaded n = (c.slot? n).any fun s => selected n s || s.loaded := by
  rw [isLoaded, slot?_load]
  cases c.slot? n with
  | none => rfl
  | some s => cases hs : selected n s <;> simp [hs, Slot.clean]

/-- The fields that are loaded afterwards were loaded before, and not selected. -/
theorem isLoaded_unload (c : Cache) (selected : Nat → Bool) (n : Nat) :
    (c.unload selected).isLoaded n = (!selected n && c.isLoaded n) := by
  rw [isLoaded, isLoaded, slot?_unload]
  cases c.slot? n with
  | none => simp
  | some s => cases selected n <;> simp [Slot.unloaded]

end Cache

namespace Instance
variable {tx : Transaction} {store : Store} {r : Request} {o o' : Instance} {e : Effect}

/-- There is a slot for each field of the class, also in the snapshot. -/
structure Sized (o : Instance) : Prop where
  slots : o.cache.size = o.schema.fieldCount
  saved : ∀ slots, o.cache.saved = some slots → slots.length = o.schema.fieldCount

namespace Sized

/-- A declared field has a slot. -/
theorem lt_length {n : Nat} (h : o.Sized) (hn : n < o.schema.fieldCount) :
    n < o.cache.slots.length :=
  Nat.lt_of_lt_of_eq hn h.slots.symm

private theorem load {selected : Nat → Slot → Bool} (h : o.Sized)
    (hl : o.load store selected = .ok o') : o'.Sized := by
  rcases load_cases hl with ⟨_, rfl⟩ | ⟨row, _, rfl⟩
  · exact h
  · exact ⟨(Cache.size_update ..).trans h.slots, h.saved⟩

private theorem save (h : o.Sized) : Sized { o with cache := o.cache.save } := by
  refine ⟨h.slots, ?_⟩
  rintro slots ⟨⟩
  exact h.slots

/-- No effect adds a slot or takes one away. -/
theorem perform (h : o.Sized) (hp : o.perform store e = .ok o') : o'.Sized := by
  cases e <;> simp only [Instance.perform] at hp
  case loadUnloadedFields | loadUnloadedFieldsInFetchPlan | loadUnloadedFieldsInPlan
      | refreshLoadedFields | refreshFieldsInFetchPlan =>
    exact h.load hp
  all_goals cases hp
  case saveFields => exact h.save
  case restoreFields =>
    refine ⟨?_, fun _ hs => by cases hs⟩
    cases hs : o.cache.saved with
    | none => simpa [Cache.restore, Cache.size, hs] using h.slots
    | some slots => simpa [Cache.restore, Cache.size, hs] using h.saved slots hs
  case clearSavedFields => exact ⟨h.slots, fun _ hs => by cases hs⟩
  case clearNonPrimaryKeyFields | clearLoadedFlags | unloadNonFetchPlanFields =>
    exact ⟨(Cache.size_update ..).trans h.slots, h.saved⟩
  case enlist | evict => exact ⟨h.slots, h.saved⟩
  case disconnect => exact ⟨(List.length_map ..).trans h.slots, h.saved⟩

/-- Whatever is done to an instance, there is a slot for each of its fields. -/
theorem keptByWork : KeptByWork Sized where
  created hc := by
    have hlen := create_length hc
    rw [create_eq_ok hc]
    exact ⟨by simpa [Cache.ofValues, Cache.size] using hlen, fun _ hs => by cases hs⟩
  found hf := by
    obtain ⟨row, _, rfl⟩ := hollow_eq_ok hf
    refine ⟨(Cache.size_update ..).trans ?_, fun _ hs => by cases hs⟩
    exact List.length_replicate
  applied h := apply_kept (fun _ _ _ hp ha => ha.perform hp) (fun _ _ ha => ⟨ha.slots, ha.saved⟩) h
  loaded hl h := h.load hl
  written h := ⟨(Cache.size_put ..).trans h.slots, h.saved⟩
  flushed h := ⟨(List.length_map ..).trans h.slots, h.saved⟩
  planned h := ⟨h.slots, h.saved⟩

end Sized

/-- Whoever has no row has all its values in memory, and so has the snapshot to which a changed
transient instance goes back. -/
structure Complete (o : Instance) : Prop where
  loaded : o.state.isSelfContained → o.cache.IsFull
  saved : o.state = .transientDirty → ∀ slots, o.cache.saved = some slots →
    Cache.IsFull ⟨slots, none⟩

namespace Complete

private theorem full_load {selected : Nat → Slot → Bool} (h : o.cache.IsFull)
    (hl : o.load store selected = .ok o') : o'.cache.IsFull := by
  rcases load_cases hl with ⟨_, rfl⟩ | ⟨row, _, rfl⟩
  · exact h
  · exact h.update fun _ _ _ _ => rfl

private theorem full_perform (he : e.keepsLoaded) (h : o.cache.IsFull)
    (hp : o.perform store e = .ok o') : o'.cache.IsFull := by
  cases e <;> simp only [Effect.keepsLoaded, Bool.false_eq_true] at he <;>
    simp only [perform] at hp
  case loadUnloadedFields | loadUnloadedFieldsInFetchPlan | loadUnloadedFieldsInPlan
      | refreshLoadedFields | refreshFieldsInFetchPlan =>
    exact full_load h hp
  all_goals cases hp
  case disconnect => exact Cache.isFull_markAllLoaded _
  all_goals exact h

private theorem full_enter {t : State} (h : o.cache.IsFull) : (o.enter t).cache.IsFull := by
  rw [enter]
  split
  · exact h
  · simp only
    split
    · exact Cache.isFull_markAllLoaded _
    · exact h

/-- Where there is a row nothing needs to be complete. -/
theorem of_not_selfContained (h : o.state.isSelfContained = false) : o.Complete := by
  refine ⟨fun hs => ?_, fun hs => ?_⟩
  · rw [h] at hs
    cases hs
  · rw [hs] at h
    cases h

private theorem failed {m : Move} {f : Failure} (h : o.Complete)
    (hm : transition tx o.schema.identity r o.state = .ok m)
    (hp : performAll store m.onFields o = .failed o' f) (hs : o'.state = o.state) :
    o'.Complete := by
  -- A load that fails is the only work on its instance.
  cases hself : o.state.isSelfContained with
  | false => exact of_not_selfContained (hs ▸ hself)
  | true =>
    have herror : (performAll store m.onFields o).answer = .error f := by rw [hp]; rfl
    obtain ⟨⟨e, he, hl⟩, _⟩ := performAll_error herror
    have hload : m.effects.any (·.isLoad) = true :=
      List.any_eq_true.mpr ⟨e, Move.mem_effects_of_mem_onFields he, hl⟩
    have honly := (load_of_not_stored (State.not_stored_of_isSelfContained hself) m hm hload).2
    rw [honly, performAll_cons] at hp
    split at hp
    · cases hp
    · cases hp
      exact h

private theorem full_restore (h : o.Complete) (hd : o.state = .transientDirty) :
    o.cache.restore.IsFull := by
  cases hs : o.cache.saved with
  | none =>
    simp only [Cache.restore, hs, Option.getD_none]
    exact h.loaded (by rw [hd]; rfl)
  | some slots =>
    simp only [Cache.restore, hs, Option.getD_some]
    exact h.saved hd slots hs

private theorem done {m : Move} {cache : Cache} (h : o.Complete)
    (hm : transition tx o.schema.identity r o.state = .ok m)
    (hp : performAll store m.onFields o = .done { o with cache } ()) :
    (enter m.next { o with cache }).Complete := by
  refine ⟨fun hs => ?_, fun hs => ?_⟩
  · rw [enter_state] at hs
    by_cases hout : m.next = .transient ∧ o.state ≠ .transient
    · rw [hout.1, enter_transient (o := { o with cache }) hout.2]
      exact Cache.isFull_markAllLoaded _
    have hself := (next_selfContained m hm hs).resolve_left hout
    by_cases hback : o.state = .transientDirty ∧ r = .rollback
    · obtain ⟨hd, rfl⟩ := hback
      have hfields : m.onFields = [.restoreFields] := by
        rw [hd] at hm
        cases hm
        rfl
      rw [hfields] at hp
      cases hp
      exact full_enter (h.full_restore hd)
    · have hkeeps := (keepsLoaded_of_selfContained hself (Decidable.not_and_iff_or_not.mp hback)
        m hm hs).resolve_left hout
      have hfull : (performAll store m.onFields o).after.cache.IsFull :=
        performAll_kept (P := fun a => a.cache.IsFull) (fun e he _ _ hp ha => full_perform
          (List.all_eq_true.mp hkeeps e (Move.mem_effects_of_mem_onFields he)) ha hp)
          (h.loaded hself)
      rw [hp] at hfull
      exact full_enter hfull
  · rw [enter_state] at hs
    rw [hs, enter_cache (by simp)]
    rcases next_transientDirty m hm hs with ⟨hd, hidle⟩ | ⟨hc, hsaves⟩
    · rw [show m.onFields = [] by rw [Move.onFields, hidle]; rfl] at hp
      have hcache : o.cache = cache := congrArg (·.after.cache) hp
      exact hcache ▸ h.saved hd
    · rw [hsaves] at hp
      cases hp
      rintro slots ⟨⟩
      exact h.loaded (by rw [hc]; rfl)

/-- Whatever is done to an instance without a row, its values stay in memory. -/
theorem keptByWork : KeptByWork Complete where
  created hc := by
    rw [create_eq_ok hc]
    exact ⟨fun _ => Cache.isFull_ofValues _, fun hs => by cases hs⟩
  found hf := by
    obtain ⟨row, _, rfl⟩ := hollow_eq_ok hf
    exact of_not_selfContained rfl
  applied := by
    intro tx store r o h
    by_cases hr : r = .begin
    · subst hr
      rw [apply_begin]
      split
      · next hs => exact of_not_selfContained (congrArg State.isSelfContained hs)
      · exact h
    rcases apply_cases tx store o hr with ⟨f, ha⟩ | ⟨m, cache, hm, _, ⟨f, hp, ha⟩ | ⟨hp, ha⟩⟩
    · rw [ha]
      exact h
    · rw [ha]
      exact h.failed hm hp rfl
    · rw [ha]
      exact h.done hm hp
  loaded := by
    intro store o o' n hl h
    have hframe : o'.state = o.state ∧ o'.cache.saved = o.cache.saved := by
      rcases load_cases hl with ⟨_, rfl⟩ | ⟨_, _, rfl⟩ <;> exact ⟨rfl, rfl⟩
    refine ⟨fun hs => full_load (h.loaded (hframe.1 ▸ hs)) hl, ?_⟩
    rw [hframe.1, hframe.2]
    exact h.saved
  written h := ⟨fun hs => (h.loaded hs).put rfl, h.saved⟩
  flushed h := ⟨fun hs => (h.loaded hs).clearDirty, h.saved⟩
  planned h := ⟨h.loaded, h.saved⟩

end Complete

/-- After a load every selected field is loaded, and so is what was loaded before. -/
theorem load_isLoaded {selected : Nat → Slot → Bool} {n : Nat} {s : Slot}
    (hl : o.load store selected = .ok o') (hn : o.cache.slot? n = some s)
    (hs : selected n s = true ∨ s.loaded = true) : o'.cache.isLoaded n = true := by
  rw [Cache.isLoaded]
  rcases load_cases hl with ⟨hnone, rfl⟩ | ⟨row, _, rfl⟩
  · rcases hs with hs | hs
    · have hmem : n ∈ o'.cache.fieldsWhere selected := Cache.mem_fieldsWhere.mpr ⟨s, hn, hs⟩
      rw [hnone] at hmem
      cases hmem
    · rw [hn]
      exact hs
  · rw [Cache.slot?_load, hn]
    simp only [Option.map_some]
    split
    · rfl
    · next hsel => exact hs.resolve_left hsel

end Instance

namespace Reached
variable {w : World} {o : Instance}

/-- Whatever happens, a managed instance has the slots of its class. -/
theorem sized (h : Reached ordinary w) (ho : o ∈ w.session.objects) : o.Sized :=
  (Instance.Sized.keptByWork.everywhere h).each o ho

/-- Not even bare transitions and effects take a slot from it. -/
theorem sized_of_anything (h : Reached anything w) (ho : o ∈ w.session.objects) : o.Sized :=
  (Instance.Sized.keptByWork.everywhere_of_anything (fun hp h => h.perform hp) h).each o ho

/-- Whatever happens, a managed instance has in memory what it cannot load. -/
theorem complete (h : Reached ordinary w) (ho : o ∈ w.session.objects) : o.Complete :=
  (Instance.Complete.keptByWork.everywhere h).each o ho

end Reached

end Lifecycle
