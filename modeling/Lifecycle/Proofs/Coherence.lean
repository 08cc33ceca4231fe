import Lifecycle.Proofs.PendingChanges

/-! The cache and the store. As long as nobody else changes the store and no rollback brings old
values back, every field that is loaded and not changed has the value of its row. -/
namespace Lifecycle

namespace Row

private theorem entry_update {row : Row} {changes : List (Nat × Value)} {n : Nat} {v : Value}
    (h : ∀ u, (n, u) ∈ changes → u = v) (hv : row.entry n = v ∨ ∃ u, (n, u) ∈ changes) :
    (row.update changes).entry n = v := by
  induction changes generalizing row with
  | nil =>
    rcases hv with hv | ⟨u, hu⟩
    · exact hv
    · cases hu
  | cons change rest ih =>
    obtain ⟨m, u⟩ := change
    refine ih (fun w hw => h w (List.mem_cons_of_mem _ hw)) ?_
    rw [entry_put]
    by_cases hm : m = n
    · subst hm
      exact .inl ((if_pos rfl).trans (h u List.mem_cons_self))
    · rw [if_neg hm]
      refine hv.imp id ?_
      rintro ⟨w, hw⟩
      rcases List.mem_cons.mp hw with heq | hw
      · cases heq
        exact absurd rfl hm
      · exact ⟨w, hw⟩

end Row

namespace Cache
variable {c : Cache} {n : Nat} {s : Slot}

/-- Writing the changes over a row replaces the entries of the changed fields, and no others. -/
theorem entry_update_changes (row : Row) (h : c.slot? n = some s) :
    (row.update c.changes).entry n = if s.dirty then s.value else row.entry n := by
  cases hd : s.dirty with
  | true =>
    refine Row.entry_update ?_ (.inr ⟨s.value, mem_changes.mpr ⟨s, h, hd, rfl⟩⟩)
    intro u hu
    obtain ⟨t, ht, _, rfl⟩ := mem_changes.mp hu
    rw [h] at ht
    cases ht
    rfl
  | false =>
    refine Row.entry_update ?_ (.inl rfl)
    intro u hu
    obtain ⟨t, ht, hdirty, _⟩ := mem_changes.mp hu
    rw [h] at ht
    cases ht
    rw [hd] at hdirty
    cases hdirty

def isDirty (c : Cache) (n : Nat) : Bool :=
  (c.slot? n).any (·.dirty)

/-- The same for every number, that of a field or not. -/
theorem entry_update (c : Cache) (row : Row) (n : Nat) :
    (row.update c.changes).entry n = if c.isDirty n then c.value n else row.entry n := by
  cases h : c.slot? n with
  | some s =>
    have hd : c.isDirty n = s.dirty := by rw [isDirty, h]; rfl
    have hv : c.value n = s.value := by rw [value, h]; rfl
    rw [hd, hv]
    exact entry_update_changes row h
  | none =>
    have hd : c.isDirty n = false := by rw [isDirty, h]; rfl
    rw [hd]
    refine Row.entry_update ?_ (.inl rfl)
    intro u hu
    obtain ⟨s, hs, _⟩ := mem_changes.mp hu
    rw [h] at hs
    cases hs

private theorem entry_values (h : c.slot? n = some s) : Row.entry c.values n = s.value := by
  have hs : c.slots[n]? = some s := h
  simp [Row.entry, values, hs]

/-- Values and loaded fields stay when the marks are cleared. -/
theorem slot?_clearDirty :
    c.clearDirty.slot? n = (c.slot? n).map fun s => { s with dirty := false } := by
  simp [clearDirty, slot?]

end Cache

/-- The event writes a primary key field of a detached instance. -/
def World.writesDetachedKey (w : World) (e : Event) : Prop :=
  ∃ id field v o n, e = .call (.object id (.write field v)) ∧ w.session.object id = .ok o ∧
    field.resolve o.schema = .ok n ∧ o.schema.isPrimaryKey n = true ∧ o.state.isDetached = true

/-- The event is a rollback by which an instance goes back to a snapshot with a changed primary key
field. -/
def World.restoresChangedKey (w : World) (e : Event) : Prop :=
  e = .call .rollback ∧ w.session.tx.active = true ∧
    w.session.tx.options.restoreValues = true ∧
    ∃ o ∈ w.session.objects, o.enlisted = true ∧ o.state.survivesRollback = true ∧
      ∃ slots n s, o.cache.saved = some slots ∧ slots[n]? = some s ∧
        o.schema.isPrimaryKey n = true ∧ s.dirty = true

/-- Ordinary events that leave the keys of stored instances alone. -/
def leavingKeys (w : World) (e : Event) : Prop :=
  e.isOrdinary ∧ ¬ w.writesDetachedKey e ∧ ¬ w.restoresChangedKey e

/-- Calls of an application, while nobody else changes the store and no detached instance is given
another key. -/
def undisturbed (w : World) (e : Event) : Prop :=
  e.isOrdinary ∧ (∀ store, e ≠ .foreign store) ∧ ¬ w.writesDetachedKey e

private def withoutSnapshots (w : World) (e : Event) : Prop :=
  undisturbed w e ∧ w.session.tx.options.restoreValues = false

namespace Instance

def KeyUnchanged : SlotProperty := fun schema _ n s =>
  schema.isPrimaryKey n = true → s.dirty = false

/-- A field that is loaded and not changed has the value of the row. -/
def Coherent : SlotProperty := fun _ row? n s =>
  s.loaded = true → s.dirty = false → ∀ row, row? = some row → s.value = Row.entry row n

end Instance

open Instance

private theorem stored_of_written {tx : Transaction} {store : Store} {o o' : Instance} {s : State}
    (h : o.apply tx store .writeField = .done o' s) (hs : o'.state.isStored) :
    o.state.isStored := by
  obtain ⟨m, hm, ht⟩ := apply_done (by simp) h
  rw [ht] at hs
  exact next_stored (by simp) (by simp) m hm hs

private theorem undone_of_stored {R : SlotProperty}
    (hR : ∀ schema row?, SurvivesLoading row? (R schema row?)) {tx : Transaction} {store : Store}
    {o : Instance} (hr : tx.options.restoreValues = false)
    (h : SlotsIn State.isStored R store o) :
    SlotsIn State.isStored R store (o.apply tx store .rollback).after :=
  Outcome.meets_self.mp (SlotsIn.apply_meets tx (by simp) rfl (hR o.schema)
    (fun m hm hs => .inl (next_stored (by simp) (by simp) m hm hs))
    (fun m hm hs => rollback_restores_nothing hr m hm hs) h)

private theorem key_survives (schema : Schema) (row? : Option Row) :
    SurvivesLoading row? (KeyUnchanged schema row?) :=
  ⟨fun _ _ => rfl, fun _ _ h => h, fun _ _ _ _ => rfl⟩

private theorem coherent_survives (schema : Schema) (row? : Option Row) :
    SurvivesLoading row? (Coherent schema row?) := by
  refine ⟨?_, ?_, ?_⟩
  · intro n hl
    cases hl
  · intro n s _ hl
    cases hl
  · intro n row hrow _ _ row' hrow'
    rw [hrow] at hrow'
    cases hrow'
    rfl

private theorem next_slotwise {tx : Transaction} {identity : Identity} {r : Request} {s : State}
    (hb : r.isBoundary = false) (hd : r ≠ .detach) :
    (transition tx identity r s).Allows fun m =>
      m.next.isStored → s.isStored ∨ m.onFields = Effect.reload := by
  have hc : r ≠ .commit := by
    rintro rfl
    cases hb
  intro m hm hs
  exact .inl (next_stored hc hd m hm hs)

private theorem key_undone {w : World} {store : Store} {o : Instance}
    (hp : ¬ w.restoresChangedKey (.call .rollback)) (ha : w.session.tx.active)
    (ho : o ∈ w.session.objects) (he : o.enlisted)
    (h : SlotsIn State.isStored KeyUnchanged store o) :
    SlotsIn State.isStored KeyUnchanged store (o.apply w.session.tx store .rollback).after := by
  cases hr : w.session.tx.options.restoreValues with
  | false => exact undone_of_stored key_survives hr h
  | true =>
    cases hs : o.state.survivesRollback with
    | false =>
      have hm := SlotsIn.apply_meets (r := .rollback) (T := State.isStored) w.session.tx (by simp)
        rfl (key_survives o.schema)
        (fun m hm hn => .inl (next_stored (by simp) (by simp) m hm hn))
        (fun m hm hn => (rollback_of_not_survives hs m hm).2 hn) h
      exact Outcome.meets_self.mp hm
    | true =>
      rw [apply_rollback hs, if_pos hr]
      intro _ n s hn hk
      simp only [Outcome.done] at hn hk
      rw [enter_cache (by simp)] at hn
      rw [enter_schema] at hk
      cases hsaved : o.cache.saved with
      | none =>
        simp only [Cache.restore, Cache.slot?, hsaved, Option.getD_none] at hn
        exact h (State.isStored_of_survivesRollback hs) n s hn hk
      | some slots =>
        simp only [Cache.restore, Cache.slot?, hsaved, Option.getD_some] at hn
        cases hd : s.dirty with
        | false => rfl
        | true => exact absurd ⟨rfl, ha, hr, o, ho, he, hs, slots, n, s, hsaved, hn, hk, hd⟩ hp

private theorem key_slotwise :
    Slotwise leavingKeys (fun tx _ o => o.EnlistedExactly tx) State.isStored KeyUnchanged where
  ordinary hp := hp.1
  framed _ _ _ _ _ h := h
  enlisted h := h
  stored h := h
  unchanged hp hd := State.isStored_of_isUnchanged (State.isUnchanged_of_isPersistent hp hd)
  survives := key_survives
  next := next_slotwise
  foreign _ h := h
  written := by
    intro w id field v o n o' s hp ho hn hkey happ hs hk
    have hstored := stored_of_written happ hs
    refine absurd ⟨id, field, v, o, n, rfl, ho, hn, hk, ?_⟩ hp.2.1
    revert hkey hstored
    cases o.state <;>
      simp [hk, State.isPersistent, State.isNew, State.isStored, State.isDetached]
  flushed _ _ _ _ _ := by
    intro n s hs _
    rw [Cache.slot?_clearDirty] at hs
    obtain ⟨t, _, rfl⟩ := Option.map_eq_some_iff.mp hs
    rfl
  undone hp ha ho he h := key_undone hp.2.2 ha ho he h

/-- As long as stored instances are not given other keys, no key field of theirs is changed. -/
theorem Reached.keyUnchanged {w : World} (h : Reached leavingKeys w) :
    Session.Everywhere (fun _ => SlotsIn State.isStored KeyUnchanged) w.pair :=
  key_slotwise.kept.everywhere
    (fun hv => (hv.mono fun _ _ _ hp => hp.1).enlistedExactly.each) h

private theorem leavingKeys_of_withoutSnapshots {w : World} {e : Event}
    (h : withoutSnapshots w e) : leavingKeys w e := by
  refine ⟨h.1.1, h.1.2.2, ?_⟩
  rintro ⟨_, _, hr, _⟩
  rw [h.2] at hr
  cases hr

private theorem rollsBackClean_of_reached {w : World} (h : Reached withoutSnapshots w)
    (hr : w.session.tx.options.restoreValues = false) : w.RollsBackClean := by
  -- A rollback that keeps nothing but the key leaves no change, since no key field is changed.
  have hkeys := (h.mono fun _ _ _ => leavingKeys_of_withoutSnapshots).keyUnchanged
  intro _ o ho _ hs
  rw [ComesBackClean, hr]
  intro n s hn hk
  exact hkeys.each o ho (State.isStored_of_survivesRollback hs) n s hn hk

private theorem rollingBackClean_of_reached {w : World} (h : Reached withoutSnapshots w) :
    Reached rollingBackClean w :=
  h.mono fun _ _ hv hp => ⟨hp.1.1, fun _ => rollsBackClean_of_reached hv hp.2⟩

/-- Without snapshots for rollback, and with undisturbed keys, no clean state hides a change. -/
theorem hidesNothing_of_undisturbed {w : World} (h : Reached undisturbed w)
    (hr : w.session.tx.options.restoreValues = false) : w.HidesNothing :=
  (rollingBackClean_of_reached
    (h.with_options (P := fun options => options.restoreValues = false) hr)).hidesNothing

private def Flushable (tx : Transaction) (store : Store) (o : Instance) : Prop :=
  o.EnlistedExactly tx ∧ SlotsIn State.isUnchanged Unchanged store o

private theorem flushed_coherent {tx : Transaction} {store store' : Store} {o : Instance}
    (hk : Flushable tx store o) (h : SlotsIn State.isStored Coherent store o)
    (hp : o.state.isPersistent) (hs : State.orSettled State.isStored o.state)
    (hw : o.written store = .ok store') :
    o.cache.clearDirty.Each (Coherent o.schema (store'.row? o.id)) := by
  rw [row?_of_written hw, if_pos rfl]
  intro n s hn hl _ row hrow
  rw [Cache.slot?_clearDirty] at hn
  obtain ⟨t, ht, rfl⟩ := Option.map_eq_some_iff.mp hn
  have hold : t.dirty = false → o.state.isStored = true → ∀ row', store.row? o.id = some row' →
      t.value = Row.entry row' n := fun hd hst row' hr' => h hst n t ht hl hd row' hr'
  rw [rowWritten] at hrow
  cases hnew : o.state.isNew <;> cases hdel : o.state.isDeleted <;>
    simp only [hnew, hdel] at hrow
  case true.true =>
    revert hs hnew hdel
    cases o.state <;>
      simp [State.isNew, State.isDeleted, State.orSettled, State.isStored, State.isPersistent]
  case true.false =>
    cases hrow
    exact (Cache.entry_values ht).symm
  case false.true => cases hrow
  case false.false =>
    have hst : o.state.isStored = true := State.isStored_of_isPersistent hp hnew
    split at hrow
    · obtain ⟨row', hr', rfl⟩ := Option.map_eq_some_iff.mp hrow
      rw [Cache.entry_update_changes row' ht]
      cases hd : t.dirty with
      | true => rfl
      | false => exact hold hd hst row' hr'
    · next hc =>
      refine hold ?_ hst row hrow
      by_cases hdirty : o.state.isDirty
      · cases hd : t.dirty with
        | false => rfl
        | true =>
          have hmem := Cache.mem_changes.mpr ⟨t, ht, hd, rfl⟩
          rw [Classical.not_not.mp fun hne => hc ⟨hdirty, hne⟩] at hmem
          cases hmem
      · exact hk.2 (State.isUnchanged_of_isPersistent hp (by simpa using hdirty)) n t ht

private theorem coherent_slotwise :
    Slotwise withoutSnapshots Flushable State.isStored Coherent where
  ordinary hp := hp.1.1
  framed _ _ _ _ hrow h := ⟨h.1, SlotsIn.framed hrow h.2⟩
  enlisted h := h.1
  stored h := h
  unchanged hp hd := State.isStored_of_isUnchanged (State.isUnchanged_of_isPersistent hp hd)
  survives := coherent_survives
  next := next_slotwise
  foreign hp _ := absurd rfl (hp.1.2.1 _)
  written _ _ _ _ _ _ _ hd := by cases hd
  flushed := flushed_coherent
  undone hp _ _ _ h := undone_of_stored coherent_survives hp.2 h

private theorem Reached.coherent {w : World} (h : Reached withoutSnapshots w) :
    Session.Everywhere (fun _ => SlotsIn State.isStored Coherent) w.pair := by
  refine coherent_slotwise.kept.everywhere ?_ h
  intro v hv o ho
  exact ⟨(hv.mono fun _ _ _ hp => hp.1.1).enlistedExactly.each o ho,
    (rollingBackClean_of_reached hv).unchanged.each o ho⟩

/-- Without snapshots for rollback, and with a store and keys that nobody else disturbs, a field
that is loaded and not changed has the value of its row, in every world that a session reaches. -/
theorem cached_eq_row {w : World} (h : Reached undisturbed w)
    (hr : w.session.tx.options.restoreValues = false) {o : Instance}
    (ho : o ∈ w.session.objects)
    (hs : o.state = .hollow ∨ o.state = .persistentClean ∨ o.state = .persistentDirty ∨
      o.state = .nontransactional ∨ o.state = .nontransactionalDirty)
    {row : Row} (hrow : w.store.row? o.id = some row) {n : Nat} {s : Slot}
    (hn : o.cache.slot? n = some s) (hl : s.loaded = true) (hd : s.dirty = false) :
    s.value = row.entry n := by
  have hreached := h.with_options (P := fun options => options.restoreValues = false) hr
  refine hreached.coherent.each o ho ?_ n s hn hl hd row hrow
  rcases hs with hs | hs | hs | hs | hs <;> rw [hs] <;> rfl

def retained : List Session.Call :=
  [.begin, .persist Sample.account [.text "A-1", .integer 10], .commit]

private def retaining : Options := { Options.standard with retainValues := true }

def retainedInstance : Instance where
  id := Sample.first
  schema := Sample.account
  plan := .standard
  cache := .ofValues [.text "A-1", .integer 10]
  state := .nontransactional
  enlisted := false
  connected := true

private theorem retained_reached : Reached undisturbed (Sample.run retaining retained) := by
  refine Reached.after (.fresh .empty .counting retaining) ?_
  intro past e hpre
  have he : e ∈ retained.map Event.call := hpre.subset (by simp)
  simp only [retained, List.map_cons, List.map_nil, List.mem_cons, List.not_mem_nil,
    or_false] at he
  refine ⟨?_, ?_, ?_⟩
  · rcases he with rfl | rfl | rfl <;> rfl
  · rcases he with rfl | rfl | rfl <;> simp
  · rintro ⟨id, field, v, o, n, hw, _⟩
    rcases he with rfl | rfl | rfl <;> cases hw

/-- The instance keeps its values after the commit that stored them. -/
theorem cached_eq_row_retained :
    retainedInstance ∈ (Sample.run retaining retained).session.objects ∧
      (Sample.run retaining retained).store.row? retainedInstance.id =
        some [.text "A-1", .integer 10] ∧
      Value.integer 10 = Row.entry [.text "A-1", .integer 10] 1 :=
  have hmem : retainedInstance ∈ (Sample.run retaining retained).session.objects :=
    List.Mem.head []
  have hslot : retainedInstance.cache.slot? 1 = some (.clean (.integer 10)) := rfl
  ⟨hmem, rfl, cached_eq_row retained_reached rfl hmem (.inr (.inr (.inr (.inl rfl)))) rfl hslot rfl
    rfl⟩

end Lifecycle
