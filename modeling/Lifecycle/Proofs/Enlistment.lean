import Lifecycle.Proofs.History

/-! Which instances take part in a transaction. A crossing enlists and evicts as the states demand,
and what was changed outside any transaction waits for the next one to begin. -/
namespace Lifecycle

namespace Instance
variable {tx : Transaction} {store : Store} {r : Request} {o : Instance}

/-- The instance is enlisted if its state is transactional, or if it was changed outside any
transaction and one is open now, and only then. -/
def EnlistedExactly (tx : Transaction) (o : Instance) : Prop :=
  o.enlisted = true ↔
    o.state.isTransactional = true ∨ o.state = .nontransactionalDirty ∧ tx.active = true

private theorem EnlistedExactly.enter {t : State} (h : o.EnlistedExactly tx)
    (ht : t = .nontransactionalDirty → o.state = .nontransactionalDirty ∨ tx.active = false) :
    (o.enter t).EnlistedExactly tx := by
  simp only [EnlistedExactly, Instance.enter] at *
  by_cases hs : t = o.state
  · rw [if_pos hs]
    exact h
  rw [if_neg hs]
  simp only
  by_cases hc : o.state.isTransactional = t.isTransactional ∧ o.state ≠ .nontransactionalDirty
  · rw [if_pos hc, h, hc.1]
    constructor
    · rintro (hi | ⟨hd, _⟩)
      · exact .inl hi
      · exact absurd hd hc.2
    · rintro (hi | ⟨hd, ha⟩)
      · exact .inl hi
      · rcases ht hd with hd | hi
        · exact absurd hd hc.2
        · rw [hi] at ha
          cases ha
  · rw [if_neg hc]
    constructor
    · exact .inl
    · rintro (hi | ⟨hd, ha⟩)
      · exact hi
      · rcases ht hd with hd' | hi
        · exact absurd (hd.trans hd'.symm) hs
        · rw [hi] at ha
          cases ha

/-- Every request but the one at the beginning of a transaction keeps enlistment exact, also if it
fails. -/
theorem EnlistedExactly.apply (hr : r ≠ .begin) (h : o.EnlistedExactly tx) :
    (o.apply tx store r).after.EnlistedExactly tx := by
  rcases apply_cases tx store o hr with
    ⟨f, ha⟩ | ⟨m, cache, ht, _, ⟨f, _, ha⟩ | ⟨_, ha⟩⟩
  · rw [ha]
    exact h
  · rw [ha]
    exact h
  · rw [ha]
    refine EnlistedExactly.enter (o := { o with cache }) h ?_
    exact next_nontransactionalDirty m ht

/-- A flush leaves the enlistment exact. -/
theorem EnlistedExactly.flush (h : o.EnlistedExactly tx) :
    (o.flush store).after.2.EnlistedExactly tx :=
  flush_kept (P := fun _ a => a.EnlistedExactly tx) h fun _ _ _ => h

/-- An ordinary call on one instance keeps its enlistment exact. -/
theorem EnlistedExactly.call {c : Call} (hc : c.isOrdinary) (h : o.EnlistedExactly tx) :
    (o.call tx c store).after.2.EnlistedExactly tx := by
  refine call_kept (P := fun _ a => a.EnlistedExactly tx) hc ?_ ?_ ?_ ?_ ?_ ?_ h
  · intro a r hb _ _ _ ha
    refine ha.apply ?_
    rintro rfl
    cases hb
  · intro _ a a' n _ hl ha
    rcases load_cases hl with ⟨_, rfl⟩ | ⟨_, _, rfl⟩
    · exact ha
    · exact ha
  · intro field v n _ _ ha
    refine writeField_kept (P := fun a => a.EnlistedExactly tx) ha (ha.apply (by simp)) ?_
    intro _ o' s _ ho'
    exact ho'
  · intro _ ha
    exact ha.flush
  · intro ha
    refine detach_kept (P := fun _ a => a.EnlistedExactly tx)
      (T := fun _ a => a.EnlistedExactly tx) ha (fun _ => Outcome.meets_self.mpr ha.flush)
      (fun _ => ha) ?_
    intro s a ha
    exact ha.apply (by simp)
  · intro plan ha
    exact ha

namespace EnlistedExactly
variable {tx' : Transaction}

private theorem begin (hb : tx.begin = .ok tx') (h : o.EnlistedExactly tx) :
    (o.apply tx' store .begin).after.EnlistedExactly tx' := by
  have ha := (Transaction.begin_eq_ok hb).2.1
  rw [apply_begin]
  by_cases hs : o.state = .nontransactionalDirty
  · rw [if_pos hs]
    exact ⟨fun _ => .inr ⟨hs, ha⟩, fun _ => rfl⟩
  · rw [if_neg hs]
    refine ⟨fun he => ?_, ?_⟩
    · exact .inl ((h.mp he).resolve_right fun hd => hs hd.1)
    · rintro (hi | ⟨hd, _⟩)
      · exact h.mpr (.inl hi)
      · exact absurd hd hs

private theorem closed (h : o.EnlistedExactly tx) (hs : o.state ≠ .nontransactionalDirty) :
    o.EnlistedExactly { tx with active := false } := by
  refine ⟨fun he => .inl ((h.mp he).resolve_right fun hd => hs hd.1), ?_⟩
  rintro (hi | ⟨_, ha⟩)
  · exact h.mpr (.inl hi)
  · cases ha

private theorem end_of_transaction {r : Request} (hr : r = .commit ∨ r = .rollback)
    (h : o.EnlistedExactly tx) :
    (o.apply tx store r).Meets
      (fun a => a.EnlistedExactly tx ∧ a.state ≠ .nontransactionalDirty)
      fun a => a.EnlistedExactly tx := by
  have hb : r ≠ .begin := by rcases hr with rfl | rfl <;> simp
  have hi : (o.apply tx store r).after.EnlistedExactly tx := h.apply hb
  rcases apply_cases tx store o hb with
    ⟨f, ha⟩ | ⟨m, cache, ht, _, ⟨f, _, ha⟩ | ⟨_, ha⟩⟩
  · rw [ha] at hi ⊢
    exact hi
  · rw [ha] at hi ⊢
    exact hi
  · rw [ha] at hi ⊢
    refine ⟨hi, ?_⟩
    simp only [Outcome.done, enter_state]
    exact next_at_end hr m ht

/-- Within a transaction whoever is not enlisted is in a state that takes no part. -/
theorem unlisted (ha : tx.active) (h : o.EnlistedExactly tx) (he : o.enlisted = false) :
    o.state.isTransactional = false ∧ o.state ≠ .nontransactionalDirty := by
  have hs : ¬ (o.state.isTransactional = true ∨
      o.state = .nontransactionalDirty ∧ tx.active = true) := by
    rw [← show o.enlisted = true ↔ _ from h, he]
    simp
  obtain ⟨ht, hd⟩ := not_or.mp hs
  exact ⟨by simpa using ht, fun hn => hd ⟨hn, ha⟩⟩

/-- Within a transaction whoever has pending changes is enlisted. -/
theorem no_pending (ha : tx.active) (h : o.EnlistedExactly tx) (he : o.enlisted = false) :
    o.hasPendingChanges = false := by
  obtain ⟨ht, hd⟩ := h.unlisted ha he
  rw [hasPendingChanges]
  revert ht hd
  cases o.state <;> simp [State.isPersistent, State.isDirty, State.isDeleted, State.isTransactional]

/-- Whoever is enlisted can take part in the end of the transaction. -/
theorem end_ok (h : o.EnlistedExactly tx) (store : Store) (he : o.enlisted)
    (hr : r = .commit ∨ r = .rollback) : ∃ s, (o.apply tx store r).answer = .ok s := by
  have hs := h.mp he
  refine apply_end_ok tx store hr ?_ ?_
  · intro hh
    simp [hh, State.isTransactional] at hs
  · intro hn
    simp [hn, State.isTransactional] at hs

private theorem kept : Kept ordinary (fun _ _ _ => True) fun tx _ o => o.EnlistedExactly tx where
  ordinary he := he
  framed _ _ _ _ _ h := h
  foreign _ h := h
  persisted _ hc := by
    rw [create_eq_ok hc]
    exact EnlistedExactly.apply (by simp) (by simp [EnlistedExactly, State.isTransactional])
  found hf := by
    obtain ⟨row, _, rfl⟩ := hollow_eq_ok hf
    simp [EnlistedExactly, State.isTransactional]
  called hp _ _ h := h.call hp
  evicted h := h.apply (by simp)
  begun hb h := h.begin hb
  committed := by
    intro w _ ha h
    have hm := Session.commit_meets (T := fun _ o => o.EnlistedExactly w.session.tx)
      (Q := fun _ o => o.EnlistedExactly w.session.tx ∧ o.state ≠ .nontransactionalDirty)
      (fun _ _ _ _ h => h) (fun _ _ _ _ h => h) (fun _ _ _ _ h => h) h ha ?_ ?_ ?_ ?_ ?_
    refine Outcome.meets_self.mp (hm.mono ?_ ?_)
    · intro p hp
      exact (hp.mono fun o _ ho => ho.1.closed ho.2).everywhere
    · intro p hp
      refine Session.Holds.everywhere (hp.mono fun o _ ho => ?_)
      rcases ho with ho | ho | ho
      · exact ho.2
      · exact ho
      · exact ho.1
    · intro s o _ ho
      exact (Outcome.meets_self.mpr ho.2.flush).mono (fun _ h => h) fun _ h => ⟨trivial, h⟩
    · intro s o _ ho
      exact ho.2
    · rintro s o r (rfl | rfl) ho <;> exact ho.apply (by simp)
    · intro s o _ ho
      exact (end_of_transaction (.inl rfl) ho).mono (fun _ h => h) fun _ h => .inl h
    · intro s o he ho
      exact ⟨ho, (ho.unlisted ha he).2⟩
  rolledBack := by
    intro w _ ha h
    have hm := Session.rollback_meets
      (Q := fun _ o => o.EnlistedExactly w.session.tx ∧ o.state ≠ .nontransactionalDirty)
      (fun _ _ _ _ h => h) (fun _ _ _ _ h => h) h ha ?_ ?_
    refine Outcome.meets_self.mp (hm.mono ?_ ?_)
    · intro p hp
      exact (hp.mono fun o _ ho => ho.1.closed ho.2).everywhere
    · intro p hp
      refine Session.Holds.everywhere (hp.mono fun o _ ho => ?_)
      rcases ho with ho | ho
      · exact ho.2
      · exact ho.1
    · intro s o _ ho
      exact (end_of_transaction (.inr rfl) ho.2).mono (fun _ h => h) fun _ h => .inl ⟨trivial, h⟩
    · intro s o he ho
      exact ⟨ho.2, (ho.2.unlisted ha he).2⟩

end EnlistedExactly

end Instance

/-- In an ordinary session the enlistment of every instance is exact. -/
theorem Reached.enlistedExactly {w : World} (h : Reached ordinary w) :
    Session.Everywhere (fun tx _ o => o.EnlistedExactly tx) w.pair :=
  Instance.EnlistedExactly.kept.everywhere (fun _ _ _ => trivial) h

namespace Session
variable {w : Store × Session}

private theorem undoing_ok
    (h : Everywhere (fun tx _ o => o.EnlistedExactly tx) w) :
    (sweepWhere (·.enlisted) (applying w.2.tx .rollback) w).answer = .ok () := by
  refine sweepWhere_ok (P := fun _ o => o.EnlistedExactly w.2.tx) _ _ (fun _ _ _ _ h => h)
    applying_own ?_ h
  intro s o he ho
  obtain ⟨t, ht⟩ := ho.end_ok s he (.inr rfl)
  simp only [applying, Outcome.within, Outcome.map, ht]
  rfl

/-- With exact enlistment an open transaction can always be rolled back. -/
theorem rollback_ok (ha : w.2.tx.active)
    (h : Everywhere (fun tx _ o => o.EnlistedExactly tx) w) :
    (rollback w).answer = .ok w.2.tx.current := by
  rw [rollback_of_ok ha (undoing_ok h)]
  rfl

/-- Rollback reaches every enlisted instance. -/
theorem rollback_mem (ha : w.2.tx.active)
    (h : Everywhere (fun tx _ o => o.EnlistedExactly tx) w) {o : Instance} (ho : o ∈ w.2.objects)
    (he : o.enlisted) :
    ∃ s, (o.apply w.2.tx s .rollback).after ∈ (rollback w).after.2.objects := by
  have hok := undoing_ok h
  rw [rollback_of_ok ha hok]
  obtain ⟨s, _, hmem⟩ := sweepWhere_mem applying_own h.sorted hok ho he
  exact ⟨s, hmem⟩

end Session

/-- Enlistment is exact for every managed instance, in every world that a session reaches by the
calls of an application, whatever others do to the store between them. -/
theorem enlisted_iff {w : World} (h : Reached ordinary w) {o : Instance}
    (ho : o ∈ w.session.objects) :
    o.enlisted = true ↔ o.state.isTransactional = true ∨
      o.state = .nontransactionalDirty ∧ w.session.tx.active = true :=
  h.enlistedExactly.each o ho

def changedBetween : World :=
  Sample.run { Options.standard with nontransactionalWrite := true, retainValues := true }
    [.begin, .persist Sample.account [.text "A-1", .integer 10], .commit,
      .object Sample.first (.write (.number 1) (.integer 99)), .begin]

def changedInstance : Instance where
  id := Sample.first
  schema := Sample.account
  plan := .standard
  cache := ⟨[.clean (.text "A-1"), .written (.integer 99)],
    some [.clean (.text "A-1"), .written (.integer 99)]⟩
  state := .nontransactionalDirty
  enlisted := true
  connected := true

/-- An instance was changed outside any transaction when the second one begins. -/
theorem enlisted_iff_changedBetween :
    changedInstance ∈ changedBetween.session.objects ∧
      (changedInstance.enlisted = true ↔ changedInstance.state.isTransactional = true ∨
        changedInstance.state = .nontransactionalDirty ∧
          changedBetween.session.tx.active = true) :=
  have hmem : changedInstance ∈ changedBetween.session.objects := List.Mem.head []
  ⟨hmem, enlisted_iff (Sample.reached_run (by decide)) hmem⟩

end Lifecycle
