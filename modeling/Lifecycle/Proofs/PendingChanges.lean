import Lifecycle.Proofs.Slots

/-! Where changes may hide. A clean state promises that no field is to be written, and only a
rollback can break the promise, by what it goes back to. -/
namespace Lifecycle

namespace Instance
variable {tx : Transaction} {store : Store} {o : Instance}

def Unchanged : SlotProperty := fun _ _ _ s => s.dirty = false

private theorem each_unchanged {c : Cache} (schema : Schema) (row? : Option Row) :
    c.Each (Unchanged schema row?) ↔ ∀ s ∈ c.slots, s.dirty = false := by
  constructor
  · intro h s hs
    obtain ⟨n, hn⟩ := List.getElem?_of_mem hs
    exact h n s hn
  · intro h n s hs
    exact h s (List.mem_of_getElem? hs)

/-- Rollback leaves no change of the instance behind. What it goes back to has none: with values
restored the snapshot, or the fields themselves if there is none, and otherwise the primary key. -/
def ComesBackClean (options : Options) (o : Instance) : Prop :=
  if options.restoreValues then ∀ s ∈ o.cache.saved.getD o.cache.slots, s.dirty = false
  else ∀ n s, o.cache.slot? n = some s → o.schema.isPrimaryKey n = true → s.dirty = false

private theorem rolledBack_unchanged (store : Store) (h : o.state.survivesRollback) :
    (∀ s ∈ (o.apply tx store .rollback).after.cache.slots, s.dirty = false) ↔
      o.ComesBackClean tx.options := by
  rw [apply_rollback h]
  rw [ComesBackClean]
  cases hr : tx.options.restoreValues with
  | true => simp [Outcome.done, enter_cache, Cache.restore]
  | false =>
    simp only [Bool.false_eq_true, ↓reduceIte, Outcome.done]
    rw [enter_cache (by simp)]
    refine (each_unchanged o.schema none).symm.trans ?_
    constructor
    · intro h n s hs hk
      refine h n s ?_
      change (o.cache.unload fun n => !o.schema.isPrimaryKey n).slot? n = some s
      rw [Cache.slot?_unload, hs]
      simp [hk]
    · intro h n s hs
      have hs' : (o.cache.unload fun n => !o.schema.isPrimaryKey n).slot? n = some s := hs
      rw [Cache.slot?_unload] at hs'
      obtain ⟨t, ht, rfl⟩ := Option.map_eq_some_iff.mp hs'
      split
      · rfl
      · next hk => exact h n t ht (by simpa using hk)

end Instance

open Instance

namespace World

/-- No instance in a clean persistent state has a field that is marked as changed. -/
def HidesNothing (w : World) : Prop :=
  ∀ o ∈ w.session.objects, o.state.isPersistent = true → o.state.isDirty = false →
    ∀ s ∈ o.cache.slots, s.dirty = false

instance (w : World) : Decidable w.HidesNothing :=
  inferInstanceAs (Decidable (∀ o ∈ w.session.objects, _ → _ → ∀ s ∈ o.cache.slots, _))

def RollsBackClean (w : World) : Prop :=
  w.session.tx.active = true → ∀ o ∈ w.session.objects, o.enlisted = true →
    o.state.survivesRollback = true → o.ComesBackClean w.session.tx.options

end World

def rollingBackClean (w : World) (e : Event) : Prop :=
  e.isOrdinary ∧ (e = .call .rollback → w.RollsBackClean)

private theorem written_changed {tx : Transaction} {store : Store} {o o' : Instance} {s : State}
    (h : o.apply tx store .writeField = .done o' s) : o'.state.isUnchanged = false := by
  obtain ⟨m, hm, hs⟩ := apply_done (by simp) h
  rw [hs]
  exact next_of_writeField m hm

private theorem unchanged_slotwise :
    Slotwise rollingBackClean (fun tx _ o => o.EnlistedExactly tx) State.isUnchanged Unchanged where
  ordinary hp := hp.1
  framed _ _ _ _ _ h := h
  enlisted h := h
  stored := State.isStored_of_isUnchanged
  unchanged := State.isUnchanged_of_isPersistent
  survives _ _ := ⟨fun _ => rfl, fun _ _ h => h, fun _ _ _ => rfl⟩
  next := next_unchanged
  foreign _ h := h
  written _ _ _ _ happ hs := by
    rw [written_changed happ] at hs
    cases hs
  flushed _ _ _ _ _ := by
    rw [each_unchanged]
    simp [Cache.clearDirty]
  undone := by
    intro w s o hp ha ho he h
    cases hs : o.state.survivesRollback with
    | true =>
      intro _
      exact (each_unchanged _ _).mpr ((rolledBack_unchanged s hs).mpr (hp.2 rfl ha o ho he hs))
    | false =>
      have hm := SlotsIn.apply_meets (r := .rollback) (T := State.isUnchanged) w.session.tx
        (by simp) rfl (fun _ => ⟨fun _ => rfl, fun _ _ h => h, fun _ _ _ => rfl⟩)
        (fun m hm hn => .inl ((rollback_of_not_survives hs m hm).1 hn))
        (fun m hm hn => (rollback_of_not_survives hs m hm).2 (State.isStored_of_isUnchanged hn)) h
      exact Outcome.meets_self.mp hm

/-- In an unchanged state no field is changed, as long as rollbacks leave no change behind. -/
theorem Reached.unchanged {w : World} (h : Reached rollingBackClean w) :
    Session.Everywhere (fun _ => SlotsIn State.isUnchanged Unchanged) w.pair :=
  unchanged_slotwise.kept.everywhere
    (fun hv => (hv.mono fun _ _ _ hp => hp.1).enlistedExactly.each) h

/-- So no clean state hides a change. -/
theorem Reached.hidesNothing {w : World} (h : Reached rollingBackClean w) : w.HidesNothing := by
  intro o ho hp hd
  exact (each_unchanged _ _).mp (h.unchanged.each o ho (State.isUnchanged_of_isPersistent hp hd))

private theorem rollsBackClean_of_next {w : World} (h : Reached ordinary w)
    (hn : (w.next (.call .rollback)).HidesNothing) : w.RollsBackClean := by
  intro ha o ho he hs
  obtain ⟨s, hmem⟩ := Session.rollback_mem (w := w.pair) ha h.enlistedExactly ho he
  refine (rolledBack_unchanged s hs).mp (hn _ hmem ?_ ?_)
  all_goals
    rw [apply_rollback hs]
    split <;> simp only [Outcome.done, enter_state] <;> rfl

/-- The clean states of a run hide no change if and only if each of its rollbacks goes back to
fields without one. Reads, writes, loads, flushes, commits and detaching never hide a change, under
any options and whatever others do to the store. -/
theorem hidesNothing_iff_rollsBackClean {store : Store} {ids : IdSource} {options : Options}
    {events : List Event} (hord : ∀ e ∈ events, e.isOrdinary) :
    (∀ past, past <+: events → ((World.fresh store ids options).after past).HidesNothing) ↔
      ∀ past, past ++ [.call .rollback] <+: events →
        ((World.fresh store ids options).after past).RollsBackClean := by
  have hmem : ∀ {past e}, past ++ [e] <+: events → e.isOrdinary := by
    intro past e hpre
    exact hord e (hpre.subset (by simp))
  constructor
  · intro h past hpre
    have hreached : Reached ordinary ((World.fresh store ids options).after past) := by
      refine Reached.of_ordinary ?_
      intro e he
      exact hord e (((List.prefix_append past _).trans hpre).subset he)
    have hnext := h _ hpre
    rw [World.after_append] at hnext
    exact rollsBackClean_of_next hreached hnext
  · intro h past hpre
    refine Reached.hidesNothing (Reached.after (.fresh store ids options) ?_)
    intro past' e hpre'
    refine ⟨hmem (hpre'.trans hpre), ?_⟩
    rintro rfl
    exact h past' (hpre'.trans hpre)

def attachedChange : List Session.Call :=
  [.begin, .persist Sample.account [.text "A-1", .integer 10], .commit,
    .object Sample.first .detach, .object Sample.first (.write (.number 1) (.integer 99)),
    .begin, .object Sample.first .attach, .rollback]

private def restoring : Options := { Options.standard with restoreValues := true }

/-- A detached instance is written to, attached without a snapshot, and rolled back. -/
theorem hidesNothing_iff_attachedChange :
    (∀ e ∈ attachedChange.map Event.call, e.isOrdinary) ∧
      ((∀ past, past <+: attachedChange.map Event.call →
          ((World.fresh .empty .counting restoring).after past).HidesNothing) ↔
        ∀ past, past ++ [.call .rollback] <+: attachedChange.map Event.call →
          ((World.fresh .empty .counting restoring).after past).RollsBackClean) :=
  have hord : ∀ e ∈ attachedChange.map Event.call, e.isOrdinary := by decide
  ⟨hord, hidesNothing_iff_rollsBackClean hord⟩

/-- A clean state may hide a change: the rollback finds no snapshot, and what it leaves as clean is
the change itself. -/
theorem clean_state_hides_change :
    ¬ ∀ w : World, Reached ordinary w → w.HidesNothing := by
  intro h
  have hclean := h (Sample.run restoring attachedChange) (Sample.reached_run (by decide))
  revert hclean
  decide

end Lifecycle
