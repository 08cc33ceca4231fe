import Mathlib.Data.List.Nodup
import Lifecycle.Proofs.Coherence
import Lifecycle.Proofs.Isolation

/-! The primary keys of stored rows. A row is given another key where a changed key field is written
over it, and there is no other way. -/
namespace Lifecycle

namespace Instance
variable {tx : Transaction} {store : Store} {o : Instance} {row row' : Row}

def Rekeys (store : Store) (o : Instance) : Prop :=
  (o.state = .persistentDirty ∨ o.state = .nontransactionalDirty) ∧
    ∃ row n, store.row? o.id = some row ∧ o.schema.isPrimaryKey n = true ∧
      o.cache.isDirty n = true ∧ o.cache.value n ≠ row.entry n

private theorem rowFlushed_of_changed
    (hs : o.state = .persistentDirty ∨ o.state = .nontransactionalDirty) :
    o.rowFlushed store = (store.row? o.id).map (·.update o.cache.changes) := by
  have hwritten : o.rowFlushed store = if o.cache.changes ≠ [] then
      (store.row? o.id).map (·.update o.cache.changes) else store.row? o.id := by
    rcases hs with hs | hs <;>
      simp [rowFlushed, rowWritten, hs, State.isPersistent, State.isNew, State.isDeleted,
        State.isDirty]
  rw [hwritten]
  split
  · rfl
  · next hc =>
    simp [Classical.not_not.mp hc, Row.update]

private theorem rowFlushed_of_unchanged (hr : o.isRefused store = false)
    (hs : ¬ (o.state = .persistentDirty ∨ o.state = .nontransactionalDirty))
    (hrow : store.row? o.id = some row) (hrow' : o.rowFlushed store = some row') : row' = row := by
  simp only [isRefused] at hr
  simp only [rowFlushed, rowWritten] at hrow'
  obtain ⟨id, schema, plan, cache, state, enlisted, connected⟩ := o
  cases state <;>
    simp_all [State.isPersistent, State.isNew, State.isDeleted, State.isDirty]

private theorem rowFlushed_keeps_iff (hr : o.isRefused store = false) :
    (∀ row row', store.row? o.id = some row → o.rowFlushed store = some row' →
      ∀ n, o.schema.isPrimaryKey n = true → row'.entry n = row.entry n) ↔ ¬ o.Rekeys store := by
  by_cases hs : o.state = .persistentDirty ∨ o.state = .nontransactionalDirty
  · rw [rowFlushed_of_changed hs]
    constructor
    · rintro h ⟨_, row, n, hrow, hk, hd, hv⟩
      have hn := h row _ hrow (by rw [hrow]; rfl) n hk
      rw [Cache.entry_update, if_pos hd] at hn
      exact hv hn
    · intro h row row' hrow hrow' n hk
      rw [hrow] at hrow'
      cases hrow'
      rw [Cache.entry_update]
      split
      · next hd => exact Classical.not_not.mp fun hv => h ⟨hs, row, n, hrow, hk, hd, hv⟩
      · rfl
  · refine ⟨fun _ h => hs h.1, fun _ row row' hrow hrow' n _ => ?_⟩
    rw [rowFlushed_of_unchanged hr hs hrow hrow']

private theorem flush_row (store : Store) (o : Instance) :
    (o.flush store).after.1.row? o.id =
      if o.isRefused store then store.row? o.id else o.rowFlushed store := by
  rcases flush_spec store o with ⟨hr, f, hf⟩ | ⟨hr, s, o', hf, hrow⟩
  · rw [hf, if_pos hr]
    rfl
  · rw [hf, hr]
    exact hrow

private theorem detach_flushes (ha : tx.active = false) (hp : o.hasPendingChanges = true) :
    (o.detach tx store).after.1 = (o.flush store).after.1 := by
  rw [detach, if_pos hp, if_neg (by simp [ha])]
  generalize o.flush store = r
  obtain ⟨⟨s, a⟩, answer⟩ := r
  cases answer <;> rfl

def Call.flushes (tx : Transaction) (store : Store) (o : Instance) : Call → Bool
  | .flush => !o.isRefused store
  | .detach => !tx.active && o.hasPendingChanges && !o.isRefused store
  | _ => false

private theorem call_row (tx : Transaction) (store : Store) (o : Instance) (c : Call) :
    (o.call tx c store).after.1.row? o.id =
      if c.flushes tx store o then o.rowFlushed store else store.row? o.id := by
  cases c with
  | flush =>
    refine (flush_row store o).trans ?_
    cases hr : o.isRefused store <;> simp [Call.flushes, hr]
  | detach =>
    change (o.detach tx store).after.1.row? o.id = _
    cases ha : tx.active with
    | true =>
      rw [detach_store (.inl ha)]
      simp [Call.flushes, ha]
    | false =>
      cases hp : o.hasPendingChanges with
      | false =>
        rw [detach_store (.inr hp)]
        simp [Call.flushes, hp]
      | true =>
        rw [detach_flushes ha hp, flush_row]
        cases hr : o.isRefused store <;> simp [Call.flushes, ha, hp, hr]
  | _ => rfl

end Instance

namespace World
variable {w : World} {c : Session.Call} {o : Instance}

/-- The instances that the call flushes, up to the first that the store refuses. -/
def flushedBy (w : World) : Session.Call → List Instance
  | .commit =>
    if w.session.tx.active then Session.beforeRefusal w.store w.session.objects else []
  | .object id c =>
    (w.session.object? id).toList.filter fun o => c.flushes w.session.tx w.store o
  | _ => []

/-- No row that is there before and after the call gets another key by it. -/
def KeepsKeys (w : World) (c : Session.Call) : Prop :=
  ∀ o ∈ w.session.objects, ∀ row row', w.store.row? o.id = some row →
    (w.call c).after.store.row? o.id = some row' →
    ∀ n, o.schema.isPrimaryKey n = true → row'.entry n = row.entry n

private theorem onObject_row {id : ObjectId} {c : Instance.Call} (hc : c.isOrdinary)
    (hs : ById.Sorted Instance.id w.session.objects) (ho : o ∈ w.session.objects) :
    (w.onObject id c).after.store.row? o.id =
      if o ∈ w.flushedBy (.object id c) then o.rowFlushed w.store else w.store.row? o.id := by
  rw [onObject, Session.object, flushedBy]
  cases hb : w.session.object? id with
  | none => rfl
  | some b =>
    have hmem : b ∈ w.session.objects := (ById.mem_of_find? hb).1
    have hown := Instance.call_own w.session.tx w.store b hc
    change (b.call w.session.tx c w.store).after.1.row? o.id = _
    by_cases hob : o = b
    · subst hob
      rw [Instance.call_row]
      simp
    · have hid : o.id ≠ b.id := fun h => hob (List.inj_on_of_nodup_map hs.nodup ho hmem h)
      rw [hown.other o.id hid, if_neg]
      simp [hob]

private theorem commit_row (hs : ById.Sorted Instance.id w.session.objects)
    (ho : o ∈ w.session.objects) :
    (w.call .commit).after.store.row? o.id =
      if o ∈ w.flushedBy .commit then o.rowFlushed w.store else w.store.row? o.id := by
  change (Session.commit w.pair).after.1.row? o.id = _
  rw [flushedBy]
  cases ha : w.session.tx.active with
  | true =>
    obtain ⟨hin, hout⟩ := Session.commit_row (w := w.pair) ha hs ho
    rw [if_pos rfl]
    by_cases hmem : o ∈ Session.beforeRefusal w.store w.session.objects
    · rw [if_pos hmem]
      exact hin hmem
    · rw [if_neg hmem]
      exact hout hmem
  | false =>
    rw [Session.commit_of_inactive (w := w.pair) ha]
    rfl

private theorem call_row (hc : c.isOrdinary) (hs : ById.Sorted Instance.id w.session.objects)
    (ho : o ∈ w.session.objects) :
    (w.call c).after.store.row? o.id =
      if o ∈ w.flushedBy c then o.rowFlushed w.store else w.store.row? o.id := by
  -- Every call writes the rows of those that it flushes, and no other row of a managed instance.
  cases c with
  | commit => exact commit_row hs ho
  | object id c => exact onObject_row hc hs ho
  | _ =>
    rw [call_store rfl (by simp)]
    simp [flushedBy]

private theorem mem_of_flushedBy (h : o ∈ w.flushedBy c) :
    o ∈ w.session.objects ∧ o.isRefused w.store = false := by
  cases c with
  | commit =>
    rw [flushedBy] at h
    split at h
    · exact Session.mem_of_beforeRefusal h
    · cases h
  | object id c =>
    obtain ⟨hmem, hf⟩ := List.mem_filter.mp h
    refine ⟨(ById.mem_of_find? (Option.mem_toList.mp hmem)).1, ?_⟩
    cases c <;> simp_all [Instance.Call.flushes]
  | _ => cases h

end World

/-- A call leaves the keys of the rows alone if and only if none of those that it flushes has a
changed key field with another value than its row. It always does so where no key field of a
detached instance was written before, and no rollback went back to a changed one. -/
theorem keepsKeys_iff {w : World} (h : Reached ordinary w) {c : Session.Call} (hc : c.isOrdinary) :
    (w.KeepsKeys c ↔ ∀ o ∈ w.flushedBy c, ¬ o.Rekeys w.store) ∧
      (Reached leavingKeys w → w.KeepsKeys c) := by
  have hs := h.enlistedExactly.sorted
  have hiff : w.KeepsKeys c ↔ ∀ o ∈ w.flushedBy c, ¬ o.Rekeys w.store := by
    constructor
    · intro hkeeps o ho
      obtain ⟨hmem, hr⟩ := World.mem_of_flushedBy ho
      refine (Instance.rowFlushed_keeps_iff hr).mp ?_
      intro row row' hrow hrow'
      refine hkeeps o hmem row row' hrow ?_
      rw [World.call_row hc hs hmem, if_pos ho, hrow']
    · intro hno o hmem row row' hrow hrow'
      rw [World.call_row hc hs hmem] at hrow'
      split at hrow'
      · next ho =>
        exact (Instance.rowFlushed_keeps_iff (World.mem_of_flushedBy ho).2).mpr (hno o ho) row row'
          hrow hrow'
      · rw [hrow] at hrow'
        cases hrow'
        exact fun _ _ => rfl
  refine ⟨hiff, fun hkeys => hiff.mpr ?_⟩
  rintro o ho ⟨hstate, row, n, _, hk, hd, _⟩
  have hstored : o.state.isStored = true := by
    rcases hstate with hstate | hstate <;> rw [hstate] <;> rfl
  obtain ⟨s, hn, hdirty⟩ := (Option.any_eq_true _ _).mp hd
  rw [hkeys.keyUnchanged.each o (World.mem_of_flushedBy ho).1 hstored n s hn hk] at hdirty
  cases hdirty

def changedAgain : World :=
  Sample.run .standard
    [.begin, .persist Sample.account [.text "A-1", .integer 10], .commit, .begin,
      .object Sample.first (.write (.number 1) (.integer 11))]

private theorem leavingKeys_of_plain {w : World} {c : Session.Call} (hc : c.isOrdinary)
    (hw : ∀ id field v, c ≠ .object id (.write field v)) (hr : c ≠ .rollback) :
    leavingKeys w (.call c) := by
  refine ⟨hc, ?_, ?_⟩
  · rintro ⟨id, field, v, _, _, heq, _⟩
    cases heq
    exact hw id field v rfl
  · rintro ⟨heq, _⟩
    cases heq
    exact hr rfl

private theorem changedAgain_reached : Reached leavingKeys changedAgain := by
  have hempty : Reached leavingKeys (.fresh .empty .counting .standard) := .fresh ..
  have hbegun := hempty.step (e := .call .begin) (leavingKeys_of_plain rfl (by simp) (by simp))
  have hpersisted := hbegun.step (e := .call (.persist Sample.account [.text "A-1", .integer 10]))
    (leavingKeys_of_plain rfl (by simp) (by simp))
  have hstored := hpersisted.step (e := .call .commit)
    (leavingKeys_of_plain rfl (by simp) (by simp))
  have hopen := hstored.step (e := .call .begin) (leavingKeys_of_plain rfl (by simp) (by simp))
  refine hopen.step (e := .call (.object Sample.first (.write (.number 1) (.integer 11))))
    ⟨rfl, ?_, ?_⟩
  · rintro ⟨_, _, _, o, n, hw, ho, hn, hk, _⟩
    cases hw
    cases ho
    cases hn
    cases hk
  · rintro ⟨heq, _⟩
    cases heq

/-- A stored instance is changed in the transaction that is to be committed. -/
theorem keepsKeys_iff_changedAgain :
    Reached leavingKeys changedAgain ∧
      (changedAgain.KeepsKeys .commit ↔
        ∀ o ∈ changedAgain.flushedBy .commit, ¬ o.Rekeys changedAgain.store) ∧
      changedAgain.KeepsKeys .commit := by
  obtain ⟨hiff, hkeeps⟩ := keepsKeys_iff (w := changedAgain) (Sample.reached_run (by decide))
    (c := .commit) rfl
  exact ⟨changedAgain_reached, hiff, hkeeps changedAgain_reached⟩

def rekeyed : World :=
  Sample.run .standard
    [.begin, .persist Sample.account [.text "A-1", .integer 10], .commit,
      .object Sample.first .detach, .object Sample.first (.write (.number 0) (.text "B-9")),
      .begin, .object Sample.first .attach]

/-- The key of a row may change: nothing keeps the key of a detached instance from being written,
and the commit after its return writes it over the row. -/
theorem key_of_row_changes :
    ¬ ∀ (w : World) (c : Session.Call), Reached ordinary w → c.isOrdinary → w.KeepsKeys c := by
  intro h
  have hkey := h rekeyed .commit (Sample.reached_run (by decide)) rfl _ (List.Mem.head [])
    [.text "A-1", .integer 10] [.text "B-9", .integer 10] rfl rfl 0 rfl
  exact absurd hkey (by decide)

end Lifecycle
