import Lifecycle.Proofs.Enlistment

/-! Invariants of the single fields of an instance that is in certain states. What they need to be
kept is the same for all of them: loading may not harm them, and flushing establishes them. -/
namespace Lifecycle

abbrev SlotProperty := Schema → Option Row → Nat → Slot → Prop

namespace Instance
variable {tx : Transaction} {store : Store} {r : Request} {o : Instance}
  {S T : State → Bool} {R : SlotProperty}

def SlotsIn (S : State → Bool) (R : SlotProperty) (store : Store) (o : Instance) : Prop :=
  S o.state = true → o.cache.Each (R o.schema (store.row? o.id))

/-- Slots are judged by the row of their own instance. -/
theorem SlotsIn.framed : Framed (SlotsIn S R) := by
  intro s t o hrow h hs
  rw [hrow]
  exact h hs

/-- A transition leads from the states of `S` to those of `T` unless the fields are read again. -/
theorem SlotsIn.apply_meets (tx : Transaction) (hr : r ≠ .begin) (hS : T .transient = false)
    (hR : ∀ row?, SurvivesLoading row? (R o.schema row?))
    (hnext : (transition tx o.schema.identity r o.state).Allows fun m =>
      T m.next → S o.state ∨ m.onFields = Effect.reload)
    (hrestore : (transition tx o.schema.identity r o.state).Allows fun m =>
      S o.state → .restoreFields ∉ m.effects)
    (h : SlotsIn S R store o) :
    (o.apply tx store r).Meets (SlotsIn T R store) (SlotsIn S R store) := by
  -- work on the fields keeps the property where it held before
  have hkept : ∀ m, transition tx o.schema.identity r o.state = .ok m → S o.state →
      (performAll store m.onFields o).after.cache.Each (R o.schema (store.row? o.id)) := by
    intro m hm hs
    refine performAll_each (hR _) (fun _ he => Move.isCrossing_of_mem_onFields he) ?_ (h hs)
    intro he
    exact hrestore m hm hs (Move.mem_effects_of_mem_onFields he)
  rcases apply_cases tx store o hr with
    ⟨f, ha⟩ | ⟨m, cache, hm, _, ⟨f, hp, ha⟩ | ⟨hp, ha⟩⟩
  · rw [ha]
    exact h
  · rw [ha]
    intro hs
    have he := hkept m hm hs
    rw [hp] at he
    exact he
  · rw [ha]
    intro hs
    simp only [Outcome.done, enter_state] at hs
    have ht : m.next ≠ .transient := by
      intro ht
      rw [ht, hS] at hs
      cases hs
    simp only [Outcome.done, enter_cache ht, enter_schema, enter_id]
    rcases hnext m hm hs with hs | hreload
    · have he := hkept m hm hs
      rw [hp] at he
      exact he
    · rw [hreload] at hp
      exact reload_each (hR _) hp

end Instance

open Instance

namespace State

/-- The states of `S`, and those in which an instance is stored once its changes are written. -/
def orSettled (S : State → Bool) (s : State) : Bool :=
  S s || s.isPersistent && !s.isDeleted

end State

/-- What an invariant of single fields needs to be kept, given enlistment is exact. -/
structure Slotwise (permitted : World → Event → Prop)
    (known : Transaction → Store → Instance → Prop) (S : State → Bool) (R : SlotProperty) :
    Prop where
  ordinary : ∀ {w e}, permitted w e → e.isOrdinary
  framed : ∀ tx, Framed (known tx)
  enlisted : ∀ {tx s o}, known tx s o → o.EnlistedExactly tx
  stored : ∀ {s}, S s → s.isStored
  unchanged : ∀ {s : State}, s.isPersistent → s.isDirty = false → S s
  survives : ∀ schema row?, SurvivesLoading row? (R schema row?)
  next : ∀ {tx identity r s}, r.isBoundary = false → r ≠ .detach →
    (transition tx identity r s).Allows fun m => S m.next → S s ∨ m.onFields = Effect.reload
  foreign : ∀ {w store o}, permitted w (.foreign store) → SlotsIn S R w.store o →
    SlotsIn S R store o
  written : ∀ {w id field v o n o' s}, permitted w (.call (.object id (.write field v))) →
    w.session.object id = .ok o → field.resolve o.schema = .ok n →
    ¬ (o.schema.isPrimaryKey n ∧ o.state.isPersistent ∧ ¬ o.state.isNew) →
    o.apply w.session.tx w.store .writeField = .done o' s → S o'.state →
    R o.schema (w.store.row? o.id) n (.written v)
  flushed : ∀ {tx s s' o}, known tx s o → SlotsIn S R s o → o.state.isPersistent →
    State.orSettled S o.state → o.written s = .ok s' →
    o.cache.clearDirty.Each (R o.schema (s'.row? o.id))
  undone : ∀ {w s o}, permitted w (.call .rollback) → w.session.tx.active →
    o ∈ w.session.objects → o.enlisted → SlotsIn S R s o →
    SlotsIn S R s (o.apply w.session.tx s .rollback).after

namespace Slotwise
variable {permitted : World → Event → Prop} {known : Transaction → Store → Instance → Prop}
  {S : State → Bool} {R : SlotProperty} {tx : Transaction} {store : Store} {o : Instance}
  {r : Request}

private theorem not_of_not_stored (k : Slotwise permitted known S R) {s : State}
    (h : s.isStored = false) : S s = false := by
  cases hs : S s with
  | false => rfl
  | true =>
    rw [k.stored hs] at h
    cases h

private theorem apply (k : Slotwise permitted known S R) (hb : r.isBoundary = false)
    (hd : r ≠ .detach) (h : SlotsIn S R store o) :
    SlotsIn S R store (o.apply tx store r).after := by
  have hr : r ≠ .begin := by
    rintro rfl
    cases hb
  have hroll : r ≠ .rollback := by
    rintro rfl
    cases hb
  refine Outcome.meets_self.mp (SlotsIn.apply_meets tx hr (k.not_of_not_stored rfl)
    (k.survives o.schema) (k.next hb hd) ?_ h)
  intro m hm _
  exact restoreFields_only_by_rollback hroll m hm

private theorem apply_settled (k : Slotwise permitted known S R)
    (hr : r = .retrieve true ∨ r = .detach ∨ r = .commit)
    (h : SlotsIn (State.orSettled S) R store o) :
    SlotsIn (State.orSettled S) R store (o.apply tx store r).after := by
  -- The transitions of a commit keep what the flushes have established.
  have hb : r ≠ .begin := by rcases hr with rfl | rfl | rfl <;> simp
  have hroll : r ≠ .rollback := by rcases hr with rfl | rfl | rfl <;> simp
  have ht : State.orSettled S .transient = false := by
    simp [State.orSettled, k.not_of_not_stored (s := .transient) rfl, State.isPersistent]
  refine Outcome.meets_self.mp (SlotsIn.apply_meets tx hb ht (k.survives o.schema) ?_ ?_ h)
  · intro m hm hs
    refine .inl ?_
    rcases next_settled hr m hm with he | ⟨hp, hd⟩ | ⟨hp, hn⟩
    · exact he ▸ hs
    · simp [State.orSettled, hp, hd]
    · simp [State.orSettled, k.not_of_not_stored hn, hp] at hs
  · intro m hm _
    exact restoreFields_only_by_rollback hroll m hm

private theorem of_settled (h : SlotsIn (State.orSettled S) R store o) : SlotsIn S R store o := by
  intro hs
  exact h (by simp [State.orSettled, hs])

private theorem settled (k : Slotwise permitted known S R) (hc : o.hasPendingChanges = false)
    (h : SlotsIn S R store o) : SlotsIn (State.orSettled S) R store o := by
  intro hs
  refine h ?_
  cases hS : S o.state with
  | true => rfl
  | false =>
    simp only [State.orSettled, hS, Bool.false_or, Bool.and_eq_true, Bool.not_eq_true'] at hs
    refine hS.symm.trans (k.unchanged hs.1 ?_)
    simpa [Instance.hasPendingChanges, hs.1, hs.2] using hc

private theorem flush_meets (k : Slotwise permitted known S R) (hk : known tx store o)
    (h : SlotsIn S R store o) :
    (o.flush store).Meets (fun p => SlotsIn (State.orSettled S) R p.1 p.2)
      fun p => p = (store, o) := by
  cases hp : o.state.isPersistent with
  | false =>
    rw [flush_of_not_persistent hp]
    intro hs
    have hs' : State.orSettled S o.state = true := hs
    exact h (by simpa [State.orSettled, hp] using hs')
  | true =>
    rcases flush_cases store hp with ⟨f, _, hf⟩ | ⟨s, hw, hf⟩
    · rw [hf]
      exact rfl
    · rw [hf]
      intro hs
      exact k.flushed hk h hp hs hw

private theorem call (k : Slotwise permitted known S R) {w : World} {id : ObjectId}
    {c : Instance.Call} (hc : permitted w (.call (.object id c)))
    (ho : w.session.object id = .ok o) (hk : known w.session.tx w.store o)
    (h : SlotsIn S R w.store o) :
    SlotsIn S R (o.call w.session.tx c w.store).after.1
      (o.call w.session.tx c w.store).after.2 := by
  refine call_kept (P := SlotsIn S R) (k.ordinary hc) ?_ ?_ ?_ ?_ ?_ ?_ h
  · intro a r hb hd _ _ ha
    exact k.apply hb hd ha
  · intro _ a a' n _ hl ha hs
    have hframe : a'.schema = a.schema ∧ a'.id = a.id ∧ a'.state = a.state := by
      rcases load_cases hl with ⟨_, rfl⟩ | ⟨_, _, rfl⟩
      · exact ⟨rfl, rfl, rfl⟩
      · exact ⟨rfl, rfl, rfl⟩
    rw [hframe.1, hframe.2.1]
    exact load_each (k.survives a.schema _) (ha (hframe.2.2 ▸ hs)) hl
  · intro field v n hw hn ha
    subst hw
    refine writeField_kept (P := SlotsIn S R w.store) ha (k.apply rfl (by simp) ha) ?_
    intro hkey o' s happ ho' hs
    have hframe := apply_frame w.session.tx w.store .writeField o
    rw [happ] at hframe
    have hid : o'.id = o.id := hframe.1
    have hschema : o'.schema = o.schema := hframe.2
    refine Cache.Each.put (ho' hs) ?_
    simp only [hid, hschema]
    exact k.written hc ho hn hkey happ hs
  · intro _ ha
    exact Outcome.meets_self.mp
      ((k.flush_meets hk ha).mono (fun _ hs => of_settled hs) fun _ hp => hp ▸ ha)
  · intro ha
    refine detach_kept (P := SlotsIn S R) (T := SlotsIn (State.orSettled S) R) ha
      (fun _ => (k.flush_meets hk ha).mono (fun _ hs => hs) fun _ hp => hp ▸ ha)
      (fun hp => k.settled hp ha) ?_
    intro s a hsettled
    exact of_settled (k.apply_settled (.inr (.inl rfl)) hsettled)
  · intro plan ha
    exact ha

private theorem commit (k : Slotwise permitted known S R) {w : World}
    (ha : w.session.tx.active)
    (h : Session.Everywhere (fun tx s o => known tx s o ∧ SlotsIn S R s o) w.pair) :
    Session.Everywhere (fun _ => SlotsIn S R) (Session.commit w.pair).after := by
  have hP : Framed fun s o => known w.session.tx s o ∧ SlotsIn S R s o :=
    fun s t o hrow h => ⟨k.framed _ hrow h.1, SlotsIn.framed hrow h.2⟩
  have hm := Session.commit_meets (T := SlotsIn (State.orSettled S) R) (Q := SlotsIn S R) hP
    SlotsIn.framed SlotsIn.framed h ha ?_ ?_ ?_ ?_ ?_
  refine Outcome.meets_self.mp (hm.mono (fun p hp => hp.everywhere) fun p hp => ?_)
  · refine Session.Holds.everywhere (hp.mono fun o _ ho => ?_)
    rcases ho with ho | ho | ho
    · exact ho.2
    · exact of_settled ho
    · exact ho
  · intro s o _ ho
    exact (k.flush_meets ho.1 ho.2).mono (fun _ hs => hs) fun _ hp => hp ▸ ho
  · intro s o he ho
    exact k.settled ((k.enlisted ho.1).no_pending ha he) ho.2
  · intro s o r hr ho
    exact k.apply_settled (hr.imp id .inl) ho
  · intro s o _ ho
    have hc : SlotsIn (State.orSettled S) R s (o.apply w.session.tx s .commit).after :=
      k.apply_settled (.inr (.inr rfl)) ho
    exact (Outcome.meets_self.mpr hc).mono (fun _ hs => of_settled hs) fun _ hs => .inl hs
  · intro s o _ ho
    exact of_settled ho

private theorem rollback (k : Slotwise permitted known S R) {w : World}
    (hp : permitted w (.call .rollback)) (ha : w.session.tx.active)
    (h : Session.Everywhere (fun tx s o => known tx s o ∧ SlotsIn S R s o) w.pair) :
    Session.Everywhere (fun _ => SlotsIn S R) (Session.rollback w.pair).after := by
  -- every instance is visited as it was in the beginning
  have hfirst := h.mono (Q := fun s o => o ∈ w.session.objects ∧ SlotsIn S R s o)
    fun o ho hi => ⟨ho, hi.2⟩
  have hm := Session.rollback_meets (Q := SlotsIn S R)
    (fun s t o hrow h => ⟨h.1, SlotsIn.framed hrow h.2⟩) SlotsIn.framed hfirst ha ?_ ?_
  refine Outcome.meets_self.mp (hm.mono (fun p hp => hp.everywhere) fun p hp => ?_)
  · refine Session.Holds.everywhere (hp.mono fun o _ ho => ?_)
    rcases ho with ho | ho
    · exact ho.2
    · exact ho
  · intro s o he ho
    have hu := k.undone hp ha ho.1 he ho.2
    exact Outcome.meets_of_after hu
  · intro s o _ ho
    exact ho.2

/-- What is kept field by field is an invariant of the instances. -/
theorem kept (k : Slotwise permitted known S R) :
    Kept permitted known fun _ => SlotsIn S R where
  ordinary := k.ordinary
  framed _ := SlotsIn.framed
  foreign := k.foreign
  persisted _ hc := by
    rw [create_eq_ok hc]
    refine k.apply rfl (by simp) ?_
    intro hs
    have ht := k.not_of_not_stored (s := .transient) rfl
    exact absurd (hs.symm.trans ht) (by simp)
  found hf := by
    obtain ⟨row, hrow, rfl⟩ := hollow_eq_ok hf
    intro _ n s hs
    have hR := k.survives
    rw [Cache.slot?_load] at hs
    obtain ⟨t, ht, rfl⟩ := Option.map_eq_some_iff.mp hs
    split
    · exact (hR _ _).loaded n row hrow
    · simp only [Cache.slot?, Cache.unloaded] at ht
      rw [List.getElem?_replicate] at ht
      split at ht <;> cases ht
      exact (hR _ _).unloaded n
  called := k.call
  evicted h := k.apply rfl (by simp) h
  begun _ h := by
    rw [apply_begin]
    split
    · exact h
    · exact h
  committed _ ha h := k.commit ha h
  rolledBack hp ha h := k.rollback hp ha h

end Slotwise

end Lifecycle
