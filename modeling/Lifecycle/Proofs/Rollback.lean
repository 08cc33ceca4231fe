import Lifecycle.Proofs.FailedCommit
import Lifecycle.Proofs.Failures
import Lifecycle.Proofs.Origins

/-! The end of a transaction as its caller sees it. Whatever has happened before, it can be rolled
back, and to the same effect; a commit has nothing to fear but the store. -/
namespace Lifecycle

namespace Instance
variable {tx : Transaction} {store : Store} {o : Instance}

/-- What rollback makes of `a`. Whoever is to stay in its state is not touched at all. -/
def RolledBack (restoreValues : Bool) (a o : Instance) : Prop :=
  o.state = a.state.afterRollback restoreValues ∧ (o.state = a.state → o = a)

private theorem rolledBack_of_enlisted (store : Store) (h : o.EnlistedExactly tx)
    (he : o.enlisted) :
    RolledBack tx.options.restoreValues o (o.apply tx store .rollback).after := by
  obtain ⟨s, hs⟩ := h.end_ok store he (.inr rfl)
  obtain ⟨m, hm, hnext⟩ := apply_next (by simp) hs
  obtain ⟨hafter, hidle⟩ := next_of_rollback m hm
  refine ⟨hnext.trans hafter, ?_⟩
  intro hsame
  have hstay : m.next = o.state := hnext.symm.trans hsame
  rw [apply_of_idle hm (hidle hstay) hstay]
  rfl

private theorem rolledBack_of_unlisted (ha : tx.active) (h : o.EnlistedExactly tx)
    (he : o.enlisted = false) (restoreValues : Bool) : RolledBack restoreValues o o := by
  refine ⟨?_, fun _ => rfl⟩
  obtain ⟨ht, hd⟩ := h.unlisted ha he
  revert ht hd
  cases o.state <;> simp [State.isTransactional, State.afterRollback]

private theorem apply_yields_of_granted {r : Request} {Q : Instance → Prop} {m : Move}
    (hm : transition tx o.schema.identity r o.state = .ok m) (h : Q (o.apply tx store r).after) :
    (o.apply tx store r).Yields Q (·.isStorage) := by
  refine Outcome.yields_of_after h fun f hf => ?_
  rw [apply_error_of_granted hm hf]
  rfl

end Instance

structure World.RolledBack (w w' : World) : Prop where
  closed : w'.session.tx = { w.session.tx with active := false }
  rows : w'.store = w.store
  ids : w'.session.ids = w.session.ids
  each : ∀ o ∈ w.session.objects, ∃ o' ∈ w'.session.objects, o'.id = o.id ∧
    o.RolledBack w.session.tx.options.restoreValues o'

open Instance

namespace Session
variable {w : Store × Session}

private theorem rollback_from (ha : w.2.tx.active)
    (h : Everywhere (fun tx _ o => o.EnlistedExactly tx) w) :
    Holds { w.2.tx with active := false }
      (From w.2.objects fun a _ o => a.RolledBack w.2.tx.options.restoreValues o)
      (rollback w).after := by
  have hP : Holds w.2.tx (fun _ o => o ∈ w.2.objects ∧ o.EnlistedExactly w.2.tx) w :=
    h.mono fun o ho hi => ⟨ho, hi⟩
  have hm := rollback_meets (Q := From w.2.objects fun a _ o =>
      a.RolledBack w.2.tx.options.restoreValues o)
    (fun _ _ _ _ h => h) (From.framed fun _ _ _ _ _ h => h) hP ha ?_ ?_
  · simpa only [Outcome.Meets, rollback_ok ha h] using hm
  · rintro s o he ⟨ho, hi⟩
    have hr : From w.2.objects (fun a _ o => a.RolledBack w.2.tx.options.restoreValues o) s
        (o.apply w.2.tx s .rollback).after :=
      ⟨o, ho, (apply_frame w.2.tx s .rollback o).1.symm, rolledBack_of_enlisted s hi he⟩
    exact Outcome.meets_of_after hr
  · rintro s o he ⟨ho, hi⟩
    exact ⟨o, ho, rfl, rolledBack_of_unlisted ha hi he _⟩

/-- With exact enlistment a commit is never refused; what fails it is the store. -/
theorem commit_fails_by_store (ha : w.2.tx.active)
    (h : Everywhere (fun tx _ o => o.EnlistedExactly tx) w) :
    (commit w).Yields (fun _ => True) (·.isStorage) := by
  let P : Store → Instance → Prop := fun _ o => o.EnlistedExactly w.2.tx
  have hP : Framed P := fun _ _ _ _ h => h
  have hm := commit_yields (T := P) (D := P) (Q := P) (F := (·.isStorage)) hP hP hP hP h ha
    ?_ (fun _ _ _ h => h) ?_ (fun _ _ _ h => h) ?_ (fun _ _ _ h => h)
  · exact hm.mono fun _ _ => trivial
  · intro s o _ ho
    exact Outcome.yields_of_after (EnlistedExactly.flush ho) fun f => flush_error
  · intro _ s o hp hd ho
    refine detaching_yields
      (P := fun _ a => a.EnlistedExactly w.2.tx ∧ a.state.isPersistent ∧ a.state.isDeleted = false)
      ?_ ?_
    · obtain ⟨m, hm⟩ := retrieve_granted .loadUnloadedFieldsInFetchPlan ha
      obtain ⟨hp', hd'⟩ := apply_retrieve_state w.2.tx s true o
      exact apply_yields_of_granted (r := .retrieve true) hm
        ⟨EnlistedExactly.apply (by simp) ho, hp'.trans hp, hd'.trans hd⟩
    · rintro a ⟨ha', hp', hd'⟩
      exact apply_yields_of_granted (detach_granted _ _ hp' hd')
        (EnlistedExactly.apply (by simp) ha')
  · intro s o he ho
    obtain ⟨t, ht⟩ := EnlistedExactly.end_ok ho s he (.inl rfl)
    exact Outcome.yields_of_ok ht (EnlistedExactly.apply (by simp) ho)

end Session

/-- An open transaction can always be rolled back. The rows stay as they are, who took part goes
where the options lead it, and nobody else is touched. A commit fails only for a row that is missing
or one that is there already, and then the transaction stays open. -/
theorem open_transaction_ends {w : World} (h : Reached ordinary w)
    (ha : w.session.tx.active = true) :
    (w.call .rollback).answer = .ok (.cycle w.session.tx.current) ∧
      w.RolledBack (w.call .rollback).after ∧
      ∀ f, (w.call .commit).answer = .error f →
        (∃ id, f = .objectNotFound id ∨ f = .duplicateObject id) ∧
          (w.call .commit).after.session.tx = w.session.tx := by
  have he := h.enlistedExactly
  have hok := Session.rollback_ok (w := w.pair) ha he
  have hfrom := Session.rollback_from (w := w.pair) ha he
  have hids := (Session.rollback_confined w.pair).ids
  refine ⟨?_, ⟨hfrom.tx, Session.rollback_store w.pair, hids, ?_⟩, ?_⟩
  · change (Session.rollback w.pair).answer.map Answer.cycle = _
    rw [hok]
    rfl
  · intro o ho
    exact Session.Holds.of_from he.sorted hfrom hids ho
  · intro f hf
    have hcommit : (Session.commit w.pair).answer = .error f := Outcome.error_of_map hf
    exact ⟨Failure.isStorage_iff.mp ((Session.commit_fails_by_store ha he).of_error hcommit),
      Session.commit_tx.of_error hcommit⟩

def refusedHalfWay : World :=
  Sample.run { Options.standard with restoreValues := true }
    [.begin, .persist Sample.account [.text "A-1", .integer 10],
      .persist Sample.account [.text "A-2", .integer 20], .commit, .begin,
      .object Sample.first (.write (.number 1) (.integer 11)),
      .object Sample.second .deletePersistent,
      .persist Sample.account [.text "A-3", .integer 30], .object Sample.third .flush, .commit]

/-- A commit was refused half way, after an update and a deletion had reached the store. -/
theorem open_transaction_ends_refusedHalfWay :
    refusedHalfWay.session.tx.active = true ∧
      (refusedHalfWay.call .rollback).answer = .ok (.cycle 2) ∧
      refusedHalfWay.RolledBack (refusedHalfWay.call .rollback).after ∧
      ∀ f, (refusedHalfWay.call .commit).answer = .error f →
        (∃ id, f = .objectNotFound id ∨ f = .duplicateObject id) ∧
          (refusedHalfWay.call .commit).after.session.tx = refusedHalfWay.session.tx :=
  ⟨rfl, open_transaction_ends (Sample.reached_run (by decide)) rfl⟩

end Lifecycle
