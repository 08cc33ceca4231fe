import Mathlib.Data.List.TakeWhile
import Lifecycle.Proofs.Enlistment

/-! The store after a commit that fails. The changes are written one instance after the other, and
nothing takes back what was written before the store refused one of them. -/
namespace Lifecycle

namespace Instance
variable {store store' : Store} {o : Instance}

/-- The store refuses to write the pending changes: the row of a new instance is there already, or
that of a stored one is missing. -/
def isRefused (store : Store) (o : Instance) : Bool :=
  match o.state with
  | .persistentNew => (store.row? o.id).isSome
  | .persistentDeleted => (store.row? o.id).isNone
  | .persistentDirty | .nontransactionalDirty =>
    o.cache.changes ≠ [] && (store.row? o.id).isNone
  | _ => false

/-- Writing the pending changes makes a difference to the row. -/
def rewrites (store : Store) (o : Instance) : Bool :=
  match o.state with
  | .persistentNew | .persistentDeleted => true
  | .persistentDirty | .nontransactionalDirty =>
    (store.row? o.id).any fun row => row.update o.cache.changes ≠ row
  | _ => false

private theorem isRefused_congr (h : store'.row? o.id = store.row? o.id) :
    o.isRefused store' = o.isRefused store := by
  rw [isRefused, isRefused, h]

/-- The changes cannot be written exactly if the store refuses them. -/
theorem written_error_iff (h : o.state.isPersistent) :
    (∃ f, o.written store = .error f) ↔ o.isRefused store = true := by
  simp only [written, isRefused, Store.insert, Store.delete, Store.update]
  obtain ⟨id, schema, plan, cache, state, enlisted, connected⟩ := o
  cases hr : store.row? id <;> cases state <;>
    simp_all [State.isPersistent, State.isNew, State.isDeleted, State.isDirty]
  all_goals
    by_cases hc : cache.changes = [] <;> simp [hc]

/-- The row once the instance is flushed. Whoever is not persistent is not written. -/
def rowFlushed (store : Store) (o : Instance) : Option Row :=
  if o.state.isPersistent then o.rowWritten (store.row? o.id) else store.row? o.id

private theorem rowFlushed_congr (h : store'.row? o.id = store.row? o.id) :
    o.rowFlushed store' = o.rowFlushed store := by
  rw [rowFlushed, rowFlushed, h]

/-- A flush of any instance: refused with nothing done, or carried out. -/
theorem flush_spec (store : Store) (o : Instance) :
    (o.isRefused store = true ∧ ∃ f, o.flush store = .failed (store, o) f) ∨
      o.isRefused store = false ∧ ∃ s o', o.flush store = .done (s, o') () ∧
        s.row? o.id = o.rowFlushed store := by
  cases hp : o.state.isPersistent with
  | false =>
    have hr : o.isRefused store = false := by
      rw [isRefused]
      revert hp
      cases o.state <;> simp [State.isPersistent]
    refine .inr ⟨hr, store, o, flush_of_not_persistent hp, ?_⟩
    rw [rowFlushed, hp]
    rfl
  | true =>
    rcases flush_cases store hp with ⟨f, hw, hf⟩ | ⟨s, hw, hf⟩
    · exact .inl ⟨(written_error_iff hp).mp ⟨f, hw⟩, f, hf⟩
    · have hr : o.isRefused store = false := by
        cases hr : o.isRefused store with
        | false => rfl
        | true =>
          obtain ⟨f, he⟩ := (written_error_iff hp).mpr hr
          rw [hw] at he
          cases he
      refine .inr ⟨hr, s, _, hf, ?_⟩
      rw [row?_of_written hw, if_pos rfl, rowFlushed, if_pos hp]

private theorem rowFlushed_eq_iff (h : o.isRefused store = false) :
    o.rowFlushed store = store.row? o.id ↔ o.rewrites store = false := by
  simp only [rowFlushed, rowWritten, rewrites]
  simp only [isRefused] at h
  obtain ⟨id, schema, plan, cache, state, enlisted, connected⟩ := o
  cases hr : store.row? id <;> cases state <;>
    simp_all [State.isPersistent, State.isNew, State.isDeleted, State.isDirty]
  all_goals
    by_cases hc : cache.changes = [] <;> simp [hc, Row.update]

end Instance

namespace Session

/-- The enlisted instances up to the first whose changes the store refuses, in the order in which a
commit visits them. -/
def beforeRefusal (store : Store) (objects : List Instance) : List Instance :=
  (objects.filter (·.enlisted)).takeWhile fun o => !o.isRefused store

section
variable {store store' : Store} {objects : List Instance} {o : Instance}

private theorem beforeRefusal_unlisted (he : o.enlisted = false) :
    beforeRefusal store (o :: objects) = beforeRefusal store objects := by
  simp [beforeRefusal, he]

private theorem beforeRefusal_refused (he : o.enlisted) (hr : o.isRefused store) :
    beforeRefusal store (o :: objects) = [] := by
  simp [beforeRefusal, he, hr]

private theorem beforeRefusal_accepted (he : o.enlisted) (hr : o.isRefused store = false) :
    beforeRefusal store (o :: objects) = o :: beforeRefusal store objects := by
  simp [beforeRefusal, he, hr]

/-- Whoever comes before the refusal is one of the instances, and is not refused. -/
theorem mem_of_beforeRefusal (h : o ∈ beforeRefusal store objects) :
    o ∈ objects ∧ o.isRefused store = false := by
  refine ⟨(List.mem_filter.mp (List.takeWhile_subset _ h)).1, ?_⟩
  simpa using List.mem_takeWhile_imp h

private theorem beforeRefusal_congr (h : ∀ o ∈ objects, store'.row? o.id = store.row? o.id) :
    beforeRefusal store' objects = beforeRefusal store objects := by
  induction objects with
  | nil => rfl
  | cons o rest ih =>
    simp only [List.forall_mem_cons] at h
    have hr := Instance.isRefused_congr h.1
    cases he : o.enlisted with
    | false => rw [beforeRefusal_unlisted he, beforeRefusal_unlisted he, ih h.2]
    | true =>
      cases hs : o.isRefused store with
      | true => rw [beforeRefusal_refused he hs, beforeRefusal_refused he (hr.trans hs)]
      | false =>
        rw [beforeRefusal_accepted he hs, beforeRefusal_accepted he (hr.trans hs), ih h.2]

end

private def flushing (store : Store) (o : Instance) : Outcome (Store × Instance) Unit :=
  if o.enlisted then o.flush store else .done (store, o) ()

private theorem flushing_own (s : Store) (o : Instance) : Own s o (flushing s o).after :=
  (Instance.flush_own s o).ite

private theorem flushing_row {store : Store} {objects : List Instance} {o : Instance}
    (hd : (objects.map (·.id)).Nodup) (ho : o ∈ objects) :
    (o ∈ beforeRefusal store objects →
      (sweep flushing store objects).after.1.row? o.id = o.rowFlushed store) ∧
    (o ∉ beforeRefusal store objects →
      (sweep flushing store objects).after.1.row? o.id = store.row? o.id) := by
  -- The flushes of a commit write those that the store accepted before it refused one, and leave
  -- all other rows as they were.
  induction objects generalizing store with
  | nil => cases ho
  | cons a rest ih =>
    obtain ⟨hnot, hnodup⟩ := List.nodup_cons.mp hd
    cases he : a.enlisted with
    | false =>
      have hv : flushing store a = .done (store, a) () := by simp [flushing, he]
      rw [sweep_cons_done hv, beforeRefusal_unlisted he]
      rcases List.mem_cons.mp ho with rfl | ho
      · have hout : o ∉ beforeRefusal store rest :=
          fun h => hnot (List.mem_map_of_mem (mem_of_beforeRefusal h).1)
        exact ⟨fun h => absurd h hout, fun _ => sweep_other flushing_own store hnot⟩
      · exact ih hnodup ho
    | true =>
      have hv : flushing store a = a.flush store := by simp [flushing, he]
      rcases Instance.flush_spec store a with ⟨hr, f, hf⟩ | ⟨hr, s, a', hf, hrow⟩
      · rw [sweep_cons_failed (hv.trans hf), beforeRefusal_refused he hr]
        refine ⟨fun h => ?_, fun _ => rfl⟩
        cases h
      · have hflush := Instance.flush_own store a
        rw [hf] at hflush
        rw [sweep_cons_done (hv.trans hf), beforeRefusal_accepted he hr]
        rcases List.mem_cons.mp ho with rfl | ho'
        · refine ⟨fun _ => ?_, fun h => absurd List.mem_cons_self h⟩
          exact (sweep_other flushing_own s hnot).trans hrow
        · -- the instances after `a` are written over the rows they had before
          have hsame : ∀ b ∈ rest, s.row? b.id = store.row? b.id := hflush.rest hd
          have hne : o ≠ a := by
            rintro rfl
            exact hnot (List.mem_map_of_mem ho')
          obtain ⟨hin, hout⟩ := @ih s hnodup ho'
          rw [beforeRefusal_congr hsame] at hin hout
          refine ⟨fun h => ?_, fun h => ?_⟩
          · exact (hin ((List.mem_cons.mp h).resolve_left hne)).trans
              (Instance.rowFlushed_congr (hsame o ho'))
          · exact (hout fun h' => h (List.mem_cons_of_mem _ h')).trans (hsame o ho')

private theorem flushing_rows {store : Store} {objects : List Instance}
    (hd : (objects.map (·.id)).Nodup) :
    (∀ id, (sweep flushing store objects).after.1.row? id = store.row? id) ↔
      ∀ o ∈ beforeRefusal store objects, o.rewrites store = false := by
  constructor
  · intro h o ho
    obtain ⟨hmem, hr⟩ := mem_of_beforeRefusal ho
    rw [← Instance.rowFlushed_eq_iff hr, ← (flushing_row hd hmem).1 ho]
    exact h o.id
  · intro h id
    by_cases hid : id ∈ objects.map (·.id)
    · obtain ⟨o, hmem, rfl⟩ := List.mem_map.mp hid
      by_cases ho : o ∈ beforeRefusal store objects
      · rw [(flushing_row hd hmem).1 ho]
        exact (Instance.rowFlushed_eq_iff (mem_of_beforeRefusal ho).2).mpr (h o ho)
      · exact (flushing_row hd hmem).2 ho
    · exact sweep_other flushing_own store hid

private def KeepsStore (store : Store) (w : Store × Session) : Prop :=
  w.1 = store

private theorem sweepWhere_keeps {p : Instance → Bool}
    {visit : Store → Instance → Outcome (Store × Instance) Unit} {store : Store}
    {w : Store × Session} (hv : ∀ s o, (visit s o).after.1 = s) (h : KeepsStore store w) :
    (sweepWhere p visit w).Meets (KeepsStore store) (KeepsStore store) :=
  Outcome.meets_self.mpr ((sweepWhere_store p visit hv w).trans h)

private theorem finish_store {store : Store} {w : Store × Session} (h : KeepsStore store w) :
    (finish w).Meets (KeepsStore store) (KeepsStore store) := by
  rw [finish_eq]
  split
  · exact h
  · exact h

private theorem detaching_store {tx : Transaction} (s : Store) (o : Instance) :
    (detaching tx s o).after.1 = s := by
  refine (Outcome.meets_self (Q := fun p : Store × Instance => p.1 = s)).mp ?_
  have hr : (applying tx (.retrieve true) s o).Meets (fun p => p.1 = s) fun p => p.1 = s :=
    Outcome.meets_self.mpr rfl
  refine hr.andThen ?_
  intro p _ hp
  exact Outcome.meets_self.mpr hp

private theorem commit_store {w : Store × Session} (ha : w.2.tx.active) :
    (commit w).after.1 = (sweep flushing w.1 w.2.objects).after.1 := by
  let flushed := KeepsStore (sweep flushing w.1 w.2.objects).after.1
  refine (Outcome.meets_self (Q := flushed)).mp
    (commit_steps ha (F := flushed) (D := flushed) ?_ ?_ ?_ ?_)
  · exact Outcome.meets_self.mpr rfl
  · intro v hv
    exact sweepWhere_keeps detaching_store hv
  · intro v hv
    exact sweepWhere_keeps (fun _ _ => rfl) hv
  · intro v hv
    exact finish_store hv

/-- A commit, whether it succeeds or not, writes those that the store accepted before it refused
one, and no other row. -/
theorem commit_row {w : Store × Session} (ha : w.2.tx.active)
    (hs : ById.Sorted Instance.id w.2.objects) {o : Instance} (ho : o ∈ w.2.objects) :
    (o ∈ beforeRefusal w.1 w.2.objects →
      (commit w).after.1.row? o.id = o.rowFlushed w.1) ∧
    (o ∉ beforeRefusal w.1 w.2.objects → (commit w).after.1.row? o.id = w.1.row? o.id) := by
  rw [commit_store ha]
  exact flushing_row hs.nodup ho

/-- Rollback writes nothing. -/
theorem rollback_store (w : Store × Session) : (rollback w).after.1 = w.1 := by
  cases ha : w.2.tx.active with
  | true =>
    exact (Outcome.meets_self (Q := KeepsStore w.1)).mp (rollback_steps ha (D := KeepsStore w.1)
      (sweepWhere_keeps (fun _ _ => rfl) rfl) fun _ hv => finish_store hv)
  | false =>
    rw [rollback_of_inactive ha]
    rfl

end Session

/-- After a commit that failed, the rollback succeeds. It brings back the rows from before the
commit if and only if no instance had made a difference to its row by the time the store refused
one. -/
theorem rollback_after_failed_commit {w : World} (h : Reached ordinary w)
    (ha : w.session.tx.active = true) {f : Failure} (hf : (w.call .commit).answer = .error f) :
    (((w.call .commit).after.call .rollback).answer = .ok (.cycle w.session.tx.current)) ∧
      ((∀ id, ((w.call .commit).after.call .rollback).after.store.row? id = w.store.row? id) ↔
        ∀ o ∈ Session.beforeRefusal w.store w.session.objects, o.rewrites w.store = false) := by
  have hnext : Reached ordinary (w.call .commit).after := h.step (e := .call .commit) rfl
  have hcommit : (Session.commit w.pair).answer = .error f := by
    have hf' : (Session.commit w.pair).answer.map Answer.cycle = .error f := hf
    cases hc : (Session.commit w.pair).answer with
    | ok n =>
      rw [hc] at hf'
      cases hf'
    | error f' =>
      rw [hc] at hf'
      cases hf'
      rfl
  have htx : (Session.commit w.pair).after.2.tx = w.session.tx :=
    Session.commit_tx.of_error hcommit
  constructor
  · have hok := Session.rollback_ok (w := (Session.commit w.pair).after)
      (by rw [htx]; exact ha) hnext.enlistedExactly
    change (Session.rollback (Session.commit w.pair).after).answer.map Answer.cycle = _
    rw [hok, htx]
    rfl
  · change (∀ id, (Session.rollback (Session.commit w.pair).after).after.1.row? id = _) ↔ _
    rw [Session.rollback_store, Session.commit_store (w := w.pair) ha]
    exact Session.flushing_rows h.enlistedExactly.sorted.nodup

def halfWritten : World :=
  Sample.run .standard [.begin, .persist Sample.account [.text "A-1", .integer 10],
    .persist Sample.account [.text "A-2", .integer 20], .object Sample.second .flush]

/-- Of two new instances the second was flushed by hand. -/
theorem rollback_after_failed_commit_halfWritten :
    halfWritten.session.tx.active = true ∧
      (halfWritten.call .commit).answer = .error (.duplicateObject Sample.second) ∧
      ((halfWritten.call .commit).after.call .rollback).answer =
        .ok (.cycle halfWritten.session.tx.current) ∧
      ((∀ id, ((halfWritten.call .commit).after.call .rollback).after.store.row? id =
          halfWritten.store.row? id) ↔
        ∀ o ∈ Session.beforeRefusal halfWritten.store halfWritten.session.objects,
          o.rewrites halfWritten.store = false) :=
  ⟨rfl, rfl, rollback_after_failed_commit (Sample.reached_run (by decide)) rfl rfl⟩

/-- A commit is not all or nothing: the store refuses the second instance, and the row of the first
stays after the rollback. -/
theorem commit_not_atomic :
    ¬ ∀ (w : World) (f : Failure), Reached ordinary w → w.session.tx.active = true →
      (w.call .commit).answer = .error f →
      ∀ id, ((w.call .commit).after.call .rollback).after.store.row? id = w.store.row? id := by
  intro h
  have hrow := h halfWritten _ (Sample.reached_run (by decide)) rfl rfl Sample.first
  have hafter : ((halfWritten.call .commit).after.call .rollback).after.store.row? Sample.first =
      some [.text "A-1", .integer 10] := rfl
  have hbefore : halfWritten.store.row? Sample.first = none := rfl
  rw [hafter, hbefore] at hrow
  cases hrow

end Lifecycle
