import Lifecycle.Proofs.Commit
import Lifecycle.Proofs.FailedCommit

/-! What a detachment does with changes that are still to be written. It neither drops them nor
takes them along: it is refused while a rollback may still come, and else they are written first, or
nothing happens at all. -/
namespace Lifecycle

namespace Instance
variable {tx : Transaction} {store : Store} {o : Instance}

def refusal (o : Instance) : Failure :=
  if o.state.isNew then .duplicateObject o.id else .objectNotFound o.id

private theorem refusal_of_written {f : Failure} (h : o.written store = .error f) :
    f = o.refusal := by
  rw [refusal]
  simp only [written, Store.insert, Store.update, Store.delete] at h
  cases hn : o.state.isNew <;> cases hd : o.state.isDeleted <;> rw [hn, hd] at h <;>
    simp only at h
  case true.true => cases h
  case true.false =>
    split at h <;> cases h
    rfl
  case false.true =>
    split at h <;> cases h
    rfl
  case false.false =>
    split at h
    · split at h <;> cases h
      rfl
    · cases h

private theorem hasPendingChanges_iff :
    o.hasPendingChanges = true ↔
      o.state.isPersistent = true ∧ o.state.isDirty = true ∧ o.state.isDeleted = false := by
  simp [hasPendingChanges, and_assoc]

private theorem enter_detachedClean (h : o.state.isPersistent = true) :
    o.enter .detachedClean = { o with
      state := .detachedClean
      enlisted := o.enlisted && !o.state.isTransactional && o.state ≠ .nontransactionalDirty } := by
  obtain ⟨id, schema, plan, cache, state, enlisted, connected⟩ := o
  cases state <;> simp [State.isPersistent] at h <;> simp [enter, State.isTransactional]

/-- The instance is detached and its changes are written: to its own row, and to no other. The
values are as they were, and nothing is left to be written. -/
structure WrittenThrough (store : Store) (o : Instance) (store' : Store) (o' : Instance) :
    Prop where
  row : o.CommitsRow (store.row? o.id) (store'.row? o.id)
  others : ∀ id, id ≠ o.id → store'.row? id = store.row? id
  detached : o' = { o with cache := o'.cache, state := .detachedClean, enlisted := false }
  slots : ∀ n, o'.cache.slot? n = (o.cache.slot? n).map fun s => { s with dirty := false }
  saved : o'.cache.saved = o.cache.saved

private theorem detach_pending (hp : o.hasPendingChanges = true) (ha : tx.active = false)
    (store : Store) :
    (o.isRefused store = true ∧ o.detach tx store = .failed (store, o) o.refusal) ∨
      o.isRefused store = false ∧ ∃ store' o',
        o.detach tx store = .done (store', o') .detachedClean ∧
          o.WrittenThrough store store' o' := by
  obtain ⟨hpersistent, hdirty, hdeleted⟩ := hasPendingChanges_iff.mp hp
  have hdetach : o.detach tx store = (o.flush store).andThen fun p _ =>
      (p.2.apply tx p.1 .detach).within (p.1, ·) := by
    rw [detach, if_pos hp, if_neg (by simp [ha])]
  rcases flush_cases store hpersistent with ⟨f, hw, hf⟩ | ⟨store', hw, hf⟩
  · refine .inl ⟨(written_error_iff hpersistent).mp ⟨f, hw⟩, ?_⟩
    rw [hdetach, hf, refusal_of_written hw]
    rfl
  · have hr : o.isRefused store = false := by
      rw [← Bool.not_eq_true, ← written_error_iff hpersistent]
      rintro ⟨f, he⟩
      rw [hw] at he
      cases he
    have hflushed := flush_own store o
    rw [hf] at hflushed
    have hleft : apply tx store' .detach { o with cache := o.cache.clearDirty } =
        .done { o with cache := o.cache.clearDirty, state := .detachedClean, enlisted := false }
          .detachedClean := by
      rw [apply_detach (o := { o with cache := o.cache.clearDirty }) tx store' hpersistent hdeleted,
        enter_detachedClean (o := { o with cache := o.cache.clearDirty }) hpersistent]
      refine congrArg (Outcome.done · State.detachedClean) ?_
      revert hpersistent hdirty hdeleted
      cases o.state <;> simp [State.isPersistent, State.isDirty, State.isDeleted,
        State.isTransactional]
    refine .inr ⟨hr, store', { o with
      cache := o.cache.clearDirty
      state := .detachedClean
      enlisted := false }, ?_, ?_⟩
    · rw [hdetach, hf, Outcome.andThen_done]
      exact congrArg (Outcome.within (store', ·)) hleft
    · exact ⟨commitsRow_of_written hpersistent hw, hflushed.other, rfl,
        fun n => Cache.slot?_clearDirty, rfl⟩

/-- What has no changes is detached as it is. -/
theorem detach_clean (hp : o.state.isPersistent = true) (hc : o.state.isDirty = false)
    (tx : Transaction) (store : Store) :
    o.detach tx store = .done (store, { o with
      state := .detachedClean
      enlisted := o.enlisted && !o.state.isTransactional }) .detachedClean := by
  have hd : o.state.isDeleted = false := by
    revert hc
    cases o.state <;> simp [State.isDirty, State.isDeleted]
  have hne : o.state ≠ .nontransactionalDirty := by
    intro hs
    rw [hs] at hc
    cases hc
  rw [detach, if_neg (by simp [hasPendingChanges, hc]), apply_detach tx store hp hd,
    enter_detachedClean hp]
  simp [hne, Outcome.within, Outcome.done]

private theorem detach_deleted (h : o.state.isDeleted = true) (tx : Transaction) (store : Store) :
    o.detach tx store = .failed (store, o)
      (.invalidOperation o.id o.state .detach "instance is deleted") := by
  rw [detach, if_neg (by simp [hasPendingChanges, h])]
  obtain ⟨id, schema, plan, cache, state, enlisted, connected⟩ := o
  cases state <;> simp only [State.isDeleted, Bool.false_eq_true] at h <;> rfl

/-- Whoever is not persistent is detached already, or was never attached. -/
theorem detach_of_not_persistent (h : o.state.isPersistent = false) (tx : Transaction)
    (store : Store) : o.detach tx store = .done (store, o) o.state := by
  rw [detach, if_neg (by simp [hasPendingChanges, h])]
  obtain ⟨id, schema, plan, cache, state, enlisted, connected⟩ := o
  cases state <;> simp only [State.isPersistent, Bool.true_eq_false] at h <;> rfl

/-- A detachment neither loses nor leaks changes, whatever the instance, the transaction and the
store. Changes that are pending stand in its way within a transaction. Outside of one they are
written first; if the store refuses them, nothing at all has happened. What has no changes only
changes its state and its enlistment, what is deleted stays deleted, and all else stays as it is. -/
theorem detach_loses_nothing (o : Instance) (tx : Transaction) (store : Store) :
    (o.state.isPersistent = true ∧ o.state.isDirty = true ∧ o.state.isDeleted = false →
      (tx.active = true → o.detach tx store = .failed (store, o)
        (.invalidOperation o.id o.state .detach
          "pending changes must be committed before detaching")) ∧
      (tx.active = false →
        (o.isRefused store = true ∧ o.detach tx store = .failed (store, o) o.refusal) ∨
          o.isRefused store = false ∧ ∃ store' o',
            o.detach tx store = .done (store', o') .detachedClean ∧
              o.WrittenThrough store store' o')) ∧
    (o.state.isPersistent = true → o.state.isDirty = false →
      o.detach tx store = .done (store, { o with
        state := .detachedClean
        enlisted := o.enlisted && !o.state.isTransactional }) .detachedClean) ∧
    (o.state.isDeleted = true → o.detach tx store = .failed (store, o)
      (.invalidOperation o.id o.state .detach "instance is deleted")) ∧
    (o.state.isPersistent = false → o.detach tx store = .done (store, o) o.state) := by
  refine ⟨fun h => ⟨fun ha => ?_, fun ha => ?_⟩, fun hp hc => detach_clean hp hc tx store,
    fun hd => detach_deleted hd tx store, fun hp => detach_of_not_persistent hp tx store⟩
  · rw [detach, if_pos (hasPendingChanges_iff.mpr h), if_pos ha]
  · exact detach_pending (hasPendingChanges_iff.mpr h) ha store

/-- A title that was scribbled over is not let go while a transaction is open, nor where its row is
missing; else it is in the row. -/
theorem detach_loses_nothing_scribbled :
    scribbled.detach (.opened .standard) shelf = .failed (shelf, scribbled)
      (.invalidOperation scribbled.id .persistentDirty .detach
        "pending changes must be committed before detaching") ∧
    scribbled.detach (.inactive .standard) .empty =
      .failed (.empty, scribbled) (.objectNotFound scribbled.id) ∧
    ∃ store' o', scribbled.detach (.inactive .standard) shelf =
        .done (store', o') .detachedClean ∧
      (∃ row, store'.row? scribbled.id = some row ∧ row.entry 1 = .text "scribble" ∧
        row.entry 2 = .null) ∧
      o'.cache.slot? 1 = some (.clean (.text "scribble")) ∧ o'.enlisted = false := by
  obtain ⟨hopen, _⟩ := (detach_loses_nothing scribbled (.opened .standard) shelf).1 ⟨rfl, rfl, rfl⟩
  obtain ⟨_, hlost⟩ := (detach_loses_nothing scribbled (.inactive .standard) .empty).1
    ⟨rfl, rfl, rfl⟩
  obtain ⟨_, hkept⟩ := (detach_loses_nothing scribbled (.inactive .standard) shelf).1
    ⟨rfl, rfl, rfl⟩
  refine ⟨hopen rfl, ?_, ?_⟩
  · rcases hlost rfl with ⟨_, hrefused⟩ | ⟨hr, _⟩
    · exact hrefused
    · cases hr
  · rcases hkept rfl with ⟨hr, _⟩ | ⟨_, store', o', hdone, hwritten⟩
    · cases hr
    · refine ⟨store', o', hdone, ?_, hwritten.slots 1, congrArg enlisted hwritten.detached⟩
      rcases hwritten.row with ⟨hnone, _⟩ | ⟨row, row', hrow, hafter, hentry⟩
      · cases hnone
      · cases hrow
        exact ⟨row', hafter, hentry 1, hentry 2⟩

end Instance

end Lifecycle
