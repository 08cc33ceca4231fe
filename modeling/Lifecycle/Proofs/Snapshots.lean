import Lifecycle.Proofs.Enlistment
import Lifecycle.Proofs.Failures
import Lifecycle.Proofs.Origins

/-! Snapshots that outlive their transaction. The end of a transaction drops the snapshot of whoever
takes part in it, and nobody else drops the others. -/
namespace Lifecycle

namespace Instance
variable {tx : Transaction} {store : Store} {r : Request} {a o o' : Instance} {s : State}

private theorem perform_hasSaved {e : Effect} (h : o.perform store e = .ok o') :
    o'.cache.hasSaved = e.snapshotAfter o.cache.hasSaved := by
  cases e <;> simp only [perform] at h
  case loadUnloadedFields | loadUnloadedFieldsInFetchPlan | loadUnloadedFieldsInPlan
      | refreshLoadedFields | refreshFieldsInFetchPlan =>
    rcases load_cases h with ⟨_, rfl⟩ | ⟨_, _, rfl⟩ <;> rfl
  all_goals cases h; rfl

private theorem performAll_hasSaved {es : List Effect} (h : performAll store es o = .done o' ()) :
    o'.cache.hasSaved = es.foldl Effect.snapshotAfter o.cache.hasSaved := by
  induction es generalizing o with
  | nil =>
    cases h
    rfl
  | cons e es ih =>
    rw [performAll_cons] at h
    split at h
    · next a ha => rw [ih h, perform_hasSaved ha, List.foldl_cons]
    · cases h

private theorem apply_hasSaved (h : o.apply tx store r = .done o' s) :
    ∃ m, transition tx o.schema.identity r o.state = .ok m ∧ m.next = s ∧
      o'.cache.hasSaved = m.snapshotAfter o.cache.hasSaved := by
  rw [apply] at h
  split at h
  · cases h
  · next m hm =>
    cases hp : performAll store m.effects o with
    | mk a answer =>
      rw [hp] at h
      cases answer with
      | error f => cases h
      | ok u =>
        cases h
        have hsaved : a.cache.hasSaved = m.snapshotAfter o.cache.hasSaved := performAll_hasSaved hp
        exact ⟨m, hm, rfl, hsaved⟩

def SavedAfterRollback (o : Instance) : Prop :=
  o.cache.hasSaved = true ∧ o.state.isBystander = true

/-- The instance is left with a snapshot by a commit. Whoever is detached keeps the one it has, and
gets one if it was cached from before the transaction. -/
def SavedAfterCommit (options : Options) (o : Instance) : Prop :=
  if options.detachAllOnCommit && o.state.isPersistent && !o.state.isDeleted then
    o.cache.hasSaved = true ∨ o.state = .nontransactional
  else o.SavedAfterRollback

private theorem end_hasSaved (hr : r = .commit ∨ r = .rollback)
    (h : o.apply tx store r = .done o' s) :
    o'.cache.hasSaved = true ↔ o.SavedAfterRollback := by
  obtain ⟨m, hm, _, hsaved⟩ := apply_hasSaved h
  rw [hsaved, snapshotAfter_end hr _ m hm, Bool.and_eq_true]
  rfl

private theorem savedAfterRollback_iff_of_unlisted (ha : tx.active) (h : o.EnlistedExactly tx)
    (he : o.enlisted = false) : o.SavedAfterRollback ↔ o.cache.hasSaved = true := by
  obtain ⟨ht, hd⟩ := h.unlisted ha he
  have hs : o.state.isBystander = true := by
    revert ht hd
    cases o.state <;> simp [State.isTransactional, State.isBystander]
  exact and_iff_left hs

private structure LikeBefore (tx : Transaction) (a o : Instance) : Prop where
  exact : o.EnlistedExactly tx
  state : o.state = a.state
  saved : o.cache.hasSaved = a.cache.hasSaved

private theorem LikeBefore.flush (h : o.EnlistedExactly tx) (store : Store) :
    LikeBefore tx o (o.flush store).after.2 := by
  refine ⟨h.flush, flush_state store o, ?_⟩
  exact flush_kept (P := fun _ b => b.cache.hasSaved = o.cache.hasSaved) rfl fun _ _ _ => rfl

private theorem LikeBefore.detaching (h : LikeBefore tx a o) (ha : tx.active)
    (hall : tx.options.detachAllOnCommit) (hp : o.state.isPersistent)
    (hd : o.state.isDeleted = false) :
    (Session.detaching tx store o).Yields
      (fun p => p.2.EnlistedExactly tx ∧
        (p.2.SavedAfterRollback ↔ a.SavedAfterCommit tx.options)) fun _ => True := by
  refine Session.detaching_yields (Q := fun _ b => b.EnlistedExactly tx ∧
      (b.SavedAfterRollback ↔ a.SavedAfterCommit tx.options))
    (P := fun _ b => b.EnlistedExactly tx ∧ b.state.isPersistent ∧ b.state.isDeleted = false ∧
      (b.cache.hasSaved = true ↔ a.SavedAfterCommit tx.options)) ?_ ?_
  · obtain ⟨hp', hd'⟩ := apply_retrieve_state tx store true o
    have hexact : (o.apply tx store (.retrieve true)).after.EnlistedExactly tx :=
      h.exact.apply (by simp)
    cases happ : o.apply tx store (.retrieve true) with
    | mk b answer =>
      rw [happ] at hp' hd' hexact
      cases answer with
      | error f => trivial
      | ok s =>
        refine ⟨hexact, hp'.trans hp, hd'.trans hd, ?_⟩
        obtain ⟨m, hm, _, hsaved⟩ := apply_hasSaved happ
        rw [hsaved, snapshotAfter_retrieve ha rfl _ m hm, h.saved, h.state, SavedAfterCommit,
          if_pos (by simp [hall, ← h.state, hp, hd])]
        simp
  · rintro b ⟨hexact, hpb, hdb, hsaved⟩
    have hexact' : (b.apply tx store .detach).after.EnlistedExactly tx := hexact.apply (by simp)
    rw [apply_detach tx store hpb hdb] at hexact' ⊢
    refine ⟨hexact', ?_⟩
    rw [← hsaved]
    simp [SavedAfterRollback, Outcome.done, enter_state, enter_cache, State.isBystander]

private theorem LikeBefore.spared (h : LikeBefore tx a o)
    (hc : (tx.options.detachAllOnCommit && o.state.isPersistent && !o.state.isDeleted) = false) :
    o.SavedAfterRollback ↔ a.SavedAfterCommit tx.options := by
  rw [SavedAfterCommit, ← h.state, hc, SavedAfterRollback, SavedAfterRollback, h.saved, h.state]
  rfl

end Instance

open Instance

namespace Session
variable {w : Store × Session}

private theorem commit_snapshots (ha : w.2.tx.active)
    (h : Everywhere (fun tx _ o => o.EnlistedExactly tx) w) :
    (commit w).Yields (Holds { w.2.tx with active := false }
      (From w.2.objects fun a _ o =>
        o.cache.hasSaved = true ↔ a.SavedAfterCommit w.2.tx.options)) fun _ => True := by
  have hP : Holds w.2.tx (fun _ o => o ∈ w.2.objects ∧ o.EnlistedExactly w.2.tx) w :=
    h.mono fun o ho hi => ⟨ho, hi⟩
  refine commit_yields (T := From w.2.objects fun a _ o => LikeBefore w.2.tx a o)
    (D := From w.2.objects fun a _ o => o.EnlistedExactly w.2.tx ∧
      (o.SavedAfterRollback ↔ a.SavedAfterCommit w.2.tx.options))
    (fun _ _ _ _ h => h) (From.framed fun _ _ _ _ _ h => h) (From.framed fun _ _ _ _ _ h => h)
    (From.framed fun _ _ _ _ _ h => h) hP ha ?_ ?_ ?_ ?_ ?_ ?_
  · rintro s o _ ⟨ho, hi⟩
    refine Outcome.yields_of_after ?_ fun _ _ => trivial
    exact ⟨o, ho, (flush_own s o).id.symm, LikeBefore.flush hi s⟩
  · rintro s o _ ⟨ho, hi⟩
    exact ⟨o, ho, rfl, hi, rfl, rfl⟩
  · rintro hall s o hp hd ⟨a, hmem, hid, hlike⟩
    refine ((hlike.detaching ha hall hp hd).and_after (X := fun p => p.2.id = o.id)
      (detaching_own s o).id).mono ?_
    rintro p ⟨hparted, hpid⟩
    exact ⟨a, hmem, hid.trans hpid.symm, hparted⟩
  · rintro s o hc ⟨a, hmem, hid, hlike⟩
    exact ⟨a, hmem, hid, hlike.exact, hlike.spared hc⟩
  · rintro s o _ ⟨a, hmem, hid, _, hiff⟩
    have hframe := (apply_frame w.2.tx s .commit o).1
    cases happ : o.apply w.2.tx s .commit with
    | mk o' answer =>
      rw [happ] at hframe
      cases answer with
      | error f => trivial
      | ok t => exact ⟨a, hmem, hid.trans hframe.symm, (end_hasSaved (.inl rfl) happ).trans hiff⟩
  · rintro s o he ⟨a, hmem, hid, hexact, hiff⟩
    exact ⟨a, hmem, hid, (savedAfterRollback_iff_of_unlisted ha hexact he).symm.trans hiff⟩

private theorem rollback_snapshots (ha : w.2.tx.active)
    (h : Everywhere (fun tx _ o => o.EnlistedExactly tx) w) :
    Holds { w.2.tx with active := false }
      (From w.2.objects fun a _ o => o.cache.hasSaved = true ↔ a.SavedAfterRollback)
      (rollback w).after := by
  have hP : Holds w.2.tx (fun _ o => o ∈ w.2.objects ∧ o.EnlistedExactly w.2.tx) w :=
    h.mono fun o ho hi => ⟨ho, hi⟩
  have hm := rollback_meets (Q := From w.2.objects fun a _ o =>
      o.cache.hasSaved = true ↔ a.SavedAfterRollback)
    (fun _ _ _ _ h => h) (From.framed fun _ _ _ _ _ h => h) hP ha ?_ ?_
  · simpa only [Outcome.Meets, rollback_ok ha h] using hm
  · rintro s o he ⟨ho, hi⟩
    obtain ⟨t, ht⟩ := hi.end_ok s he (.inr rfl)
    have hframe := (apply_frame w.2.tx s .rollback o).1
    cases happ : o.apply w.2.tx s .rollback with
    | mk o' answer =>
      rw [happ] at ht hframe
      cases ht
      exact ⟨o, ho, hframe.symm, end_hasSaved (.inr rfl) happ⟩
  · rintro s o he ⟨ho, hi⟩
    exact ⟨o, ho, rfl, (savedAfterRollback_iff_of_unlisted ha hi he).symm⟩

private theorem dropped_iff {tx : Transaction} {v : Store × Session} {Y : Instance → Prop}
    (hs : ById.Sorted Instance.id w.2.objects)
    (h : Holds tx (From w.2.objects fun a _ o => o.cache.hasSaved = true ↔ Y a) v)
    (hids : v.2.ids = w.2.ids) :
    (∀ o ∈ v.2.objects, o.cache.hasSaved = false) ↔ ∀ a ∈ w.2.objects, ¬ Y a := by
  refine Holds.forall_iff_of_from hs (h.mono fun o _ ho => ?_) hids
  obtain ⟨a, ha, hid, hiff⟩ := ho
  exact ⟨a, ha, hid, (iff_of_eq (Bool.not_eq_true _)).symm.trans (not_congr hiff)⟩

end Session

/-- After a commit that succeeds no instance holds a snapshot if and only if the commit detaches no
one with a snapshot or with values from before the transaction, and passes by no one else with a
snapshot. After a rollback it is so if and only if the rollback passes by no one with a snapshot. -/
theorem snapshots_dropped_iff {w : World} (h : Reached ordinary w) (a : Answer) :
    ((w.call .commit).answer = .ok a →
      ((∀ o ∈ (w.call .commit).after.session.objects, o.cache.hasSaved = false) ↔
        ∀ o ∈ w.session.objects, ¬ o.SavedAfterCommit w.session.tx.options)) ∧
    ((w.call .rollback).answer = .ok a →
      ((∀ o ∈ (w.call .rollback).after.session.objects, o.cache.hasSaved = false) ↔
        ∀ o ∈ w.session.objects, ¬ o.SavedAfterRollback)) := by
  have he := h.enlistedExactly
  constructor
  · intro hok
    obtain ⟨n, hn, _⟩ := Outcome.ok_of_map hok
    have hfrom := (Session.commit_snapshots (Session.active_of_commit hn) he).of_ok hn
    exact Session.dropped_iff he.sorted hfrom (Session.commit_confined w.pair).ids
  · intro hok
    obtain ⟨n, hn, _⟩ := Outcome.ok_of_map hok
    have hfrom := Session.rollback_snapshots (Session.active_of_rollback hn) he
    exact Session.dropped_iff he.sorted hfrom (Session.rollback_confined w.pair).ids

private def restoringDetached : Options :=
  { Options.standard with restoreValues := true, detachAllOnCommit := true }

def detachedSoon : List Session.Call :=
  [.begin, .persist Sample.account [.text "A-1", .integer 10],
    .object Sample.first (.write (.number 1) (.integer 20))]

/-- A new instance is changed in the transaction that is to store and detach it. -/
theorem snapshots_dropped_iff_detachedSoon :
    ((Sample.run restoringDetached detachedSoon).call .commit).answer = .ok (.cycle 1) ∧
      ((∀ o ∈ ((Sample.run restoringDetached detachedSoon).call .commit).after.session.objects,
          o.cache.hasSaved = false) ↔
        ∀ o ∈ (Sample.run restoringDetached detachedSoon).session.objects,
          ¬ o.SavedAfterCommit restoringDetached) ∧
      ((Sample.run restoringDetached detachedSoon).call .rollback).answer = .ok (.cycle 1) ∧
      ((∀ o ∈ ((Sample.run restoringDetached detachedSoon).call .rollback).after.session.objects,
          o.cache.hasSaved = false) ↔
        ∀ o ∈ (Sample.run restoringDetached detachedSoon).session.objects,
          ¬ o.SavedAfterRollback) := by
  obtain ⟨hcommit, hrollback⟩ := snapshots_dropped_iff
    (w := Sample.run restoringDetached detachedSoon) (Sample.reached_run (by decide)) (.cycle 1)
  exact ⟨rfl, hcommit rfl, rfl, hrollback rfl⟩

/-- A snapshot may outlive the transaction: whoever is detached by the commit takes it along. -/
theorem snapshot_outlives_commit :
    ¬ ∀ (w : World) (a : Answer), Reached ordinary w → (w.call .commit).answer = .ok a →
      ∀ o ∈ (w.call .commit).after.session.objects, o.cache.hasSaved = false := by
  intro h
  have hsaved := h (Sample.run restoringDetached detachedSoon) _ (Sample.reached_run (by decide))
    rfl _ (List.Mem.head [])
  cases hsaved

/-- Attached again, it is rolled back to the values from before the commit. -/
example :
    let w := Sample.run restoringDetached
      (detachedSoon ++ [.commit, .begin, .object Sample.first .attach, .rollback])
    w.session.objects.map (·.cache.values) = [[.text "A-1", .integer 10]] ∧
      w.store.row? Sample.first = some [.text "A-1", .integer 20] :=
  ⟨rfl, rfl⟩

end Lifecycle
