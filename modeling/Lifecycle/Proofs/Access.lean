import Lifecycle.Instance.Call
import Lifecycle.Proofs.Sweep

/-! What the calls on one instance have in common. They are transitions and work on single fields,
and reach the store only to write the row of the instance itself. -/
namespace Lifecycle.Instance
variable {tx : Transaction} {store store' : Store} {o : Instance}

/-- The row once pending changes are written over the one that is there. -/
def rowWritten (row? : Option Row) (o : Instance) : Option Row :=
  match o.state.isNew, o.state.isDeleted with
  | true, true => row?
  | true, false => some o.cache.values
  | false, true => none
  | false, false =>
    if o.state.isDirty ∧ o.cache.changes ≠ [] then row?.map (·.update o.cache.changes) else row?

/-- The changes of an instance are written to its own row, and to no other. -/
theorem row?_of_written (h : o.written store = .ok store') (id : ObjectId) :
    store'.row? id = if id = o.id then o.rowWritten (store.row? o.id) else store.row? id := by
  have hsame : store.row? id = if id = o.id then store.row? o.id else store.row? id := by
    split
    · next hid => rw [hid]
    · rfl
  simp only [written] at h
  simp only [rowWritten]
  cases hn : o.state.isNew <;> cases hd : o.state.isDeleted <;> simp only [hn, hd] at h ⊢
  case true.true =>
    cases h
    exact hsame
  case true.false => simpa only [eq_comm] using Store.row?_of_insert h id
  case false.true => exact Store.row?_of_delete h id
  case false.false =>
    by_cases hc : o.state.isDirty ∧ o.cache.changes ≠ []
    · rw [if_pos hc] at h ⊢
      simpa only [eq_comm] using Store.row?_of_update h id
    · rw [if_neg hc] at h ⊢
      cases h
      exact hsame

/-- Whoever is not persistent has nothing to be flushed. -/
theorem flush_of_not_persistent (h : o.state.isPersistent = false) :
    o.flush store = .done (store, o) () := by
  rw [flush, h]
  rfl

/-- Flushing a persistent instance: the store refuses, or the row and the cache agree. -/
theorem flush_cases (store : Store) (h : o.state.isPersistent) :
    (∃ f, o.written store = .error f ∧ o.flush store = .failed (store, o) f) ∨
      ∃ s, o.written store = .ok s ∧
        o.flush store = .done (s, { o with cache := o.cache.clearDirty }) () := by
  rw [flush, if_pos h]
  cases hw : o.written store with
  | error f => exact .inl ⟨f, rfl, rfl⟩
  | ok s => exact .inr ⟨s, rfl, rfl⟩

/-- A flush keeps what survives the writing of the changes and the clearing of their marks. -/
theorem flush_kept {P : Store → Instance → Prop} (h : P store o)
    (flushed : o.state.isPersistent → ∀ s, o.written store = .ok s →
      P s { o with cache := o.cache.clearDirty }) :
    P (o.flush store).after.1 (o.flush store).after.2 := by
  cases hp : o.state.isPersistent with
  | false =>
    rw [flush_of_not_persistent hp]
    exact h
  | true =>
    rcases flush_cases store hp with ⟨f, _, hf⟩ | ⟨s, hs, hf⟩
    · rw [hf]
      exact h
    · rw [hf]
      exact flushed hp s hs

/-- A flush leaves the state alone. -/
theorem flush_state (store : Store) (o : Instance) : (o.flush store).after.2.state = o.state :=
  flush_kept (P := fun _ a => a.state = o.state) rfl fun _ _ _ => rfl

/-- A flush works on its instance alone. -/
theorem flush_own (store : Store) (o : Instance) : Own store o (o.flush store).after := by
  refine flush_kept (P := fun s a => Own store o (s, a)) (Own.refl store o) ?_
  intro _ s hs
  refine ⟨rfl, ?_⟩
  intro id hid
  exact (row?_of_written hs id).trans (if_neg hid)

/-- A request works on its instance alone. -/
theorem apply_own (tx : Transaction) (store : Store) (r : Request) (o : Instance) :
    Own store o (store, (o.apply tx store r).after) :=
  ⟨(apply_frame tx store r o).1, fun _ _ => rfl⟩

/-- A write is a transition, and after it one field has its new value. Of a stored instance no key
field is written. -/
theorem writeField_kept {P : Instance → Prop} {n : Nat} {v : Value} (h : P o)
    (applied : P (o.apply tx store .writeField).after)
    (put : ¬ (o.schema.isPrimaryKey n ∧ o.state.isPersistent ∧ ¬ o.state.isNew) →
      ∀ o' s, o.apply tx store .writeField = .done o' s → P o' →
        P { o' with cache := o'.cache.put n (.written v) }) :
    P (o.writeField tx store n v).after := by
  rw [writeField, ifDeclared]
  split
  · split
    · exact h
    · next hk =>
      have hput := put hk
      generalize o.apply tx store .writeField = a at applied hput
      obtain ⟨o', answer⟩ := a
      cases answer with
      | error f => exact applied
      | ok s => exact hput o' s rfl applied
  · exact h

/-- A write that succeeds was granted by the state, and has put the value in its place. -/
theorem writeField_eq_done {n : Nat} {v : Value} {o' : Instance}
    (h : o.writeField tx store n v = .done o' ()) :
    n < o.schema.fieldCount ∧ ∃ a s, o.apply tx store .writeField = .done a s ∧
      o' = { a with cache := a.cache.put n (.written v) } := by
  rw [writeField, ifDeclared] at h
  split at h
  · next hn =>
    refine ⟨hn, ?_⟩
    split at h
    · cases h
    · cases ha : o.apply tx store .writeField with
      | mk a answer =>
        rw [ha] at h
        cases answer with
        | error f => cases h
        | ok s =>
          cases h
          exact ⟨a, s, rfl, rfl⟩
  · cases h

/-- Detaching settles the changes first, by a flush where there are some. -/
theorem detach_kept {P T : Store → Instance → Prop} (h : P store o)
    (flushed : o.hasPendingChanges = true →
      (o.flush store).Meets (fun p => T p.1 p.2) fun p => P p.1 p.2)
    (settled : o.hasPendingChanges = false → T store o)
    (applied : ∀ s a, T s a → P s (a.apply tx s .detach).after) :
    P (o.detach tx store).after.1 (o.detach tx store).after.2 := by
  refine (Outcome.meets_self (Q := fun p : Store × Instance => P p.1 p.2)).mp ?_
  rw [detach]
  split
  · next hc =>
    split
    · exact h
    · refine (flushed hc).andThen ?_
      intro p _ hp
      exact Outcome.meets_within.mpr (Outcome.meets_self.mpr (applied p.1 p.2 hp))
  · next hc =>
    exact Outcome.meets_within.mpr
      (Outcome.meets_self.mpr (applied store o (settled (by simpa using hc))))

namespace Call

/-- An operation for applications. Bare transitions and bare effects are for the states alone. -/
def isOrdinary : Call → Bool
  | apply _ | perform _ => false
  | _ => true

end Call

/-- A read is a transition to `T`, and after it the load of one field. -/
theorem readField_kept {P T : Instance → Prop} {n : Nat} (h : P o)
    (applied : (o.apply tx store (.readField (o.cache.isLoaded n))).Meets T P)
    (kept : ∀ a, T a → P a)
    (loaded : ∀ {a a' : Instance}, a.cache.isLoaded n = false →
      a.load store (fun m _ => m = n) = .ok a' → T a → P a') :
    P (o.readField tx store n).after := by
  refine Outcome.meets_self.mp ?_
  rw [readField, ifDeclared]
  split
  · refine applied.andThen ?_
    intro o' _ ho'
    have hs : (o'.supply store n).Meets P P := by
      rw [supply]
      split
      · next hc =>
        cases hl : o'.load store (fun m _ => m = n) with
        | ok o'' => exact loaded (by simpa using hc.1) hl ho'
        | error f => exact kept o' ho'
      · exact kept o' ho'
    refine hs.andThen ?_
    intro o'' _ ho''
    exact ho''
  · exact h

/-- Only a field that is found is worked on. -/
theorem withField_kept {α : Type} {P : Instance → Prop} {field : FieldRef}
    {go : Nat → Outcome Instance α} (h : P o)
    (found : ∀ n, field.resolve o.schema = .ok n → P (go n).after) :
    P (o.withField field go).after := by
  rw [withField]
  split
  · next n hn => exact found n hn
  · exact h

/-- A write that can be made is made by the call. -/
theorem call_write {field : FieldRef} {n : Nat} {v : Value} {a : Instance}
    (hn : field.resolve o.schema = .ok n) (hw : o.writeField tx store n v = .done a ()) :
    o.call tx (.write field v) store = .done (store, a) .done := by
  rw [call, withField, hn]
  simp only [hw]
  rfl

/-- A property that survives each piece of work on an instance survives every ordinary call. -/
theorem call_kept {P : Store → Instance → Prop} {c : Call} (hc : c.isOrdinary)
    (applied : ∀ {o r}, r.isBoundary = false → r ≠ .detach → r ≠ .writeField →
      (∀ use all, r = .makeTransient use all → c = .makeTransient use) ∧
        (r = .refresh → c = .refresh) → P store o → P store (o.apply tx store r).after)
    (loaded : ∀ {field o o' n}, c = .read field → o.load store (fun m _ => m = n) = .ok o' →
      P store o → P store o')
    (written : ∀ {field v n}, c = .write field v → field.resolve o.schema = .ok n → P store o →
      P store (o.writeField tx store n v).after)
    (flushed : c = .flush → P store o → P (o.flush store).after.1 (o.flush store).after.2)
    (detached : P store o → P (o.detach tx store).after.1 (o.detach tx store).after.2)
    (planned : ∀ plan, P store o → P store { o with plan }) (h : P store o) :
    P (o.call tx c store).after.1 (o.call tx c store).after.2 := by
  cases c with
  | apply r => cases hc
  | perform e => cases hc
  | read field =>
    change P store (o.withField field fun n => o.readField tx store n).after
    refine withField_kept (P := P store) h fun n _ => ?_
    exact readField_kept (P := P store) (T := P store) h
      (Outcome.meets_self.mpr (applied rfl (by simp) (by simp) (by simp) h)) (fun _ ha => ha)
      fun _ => loaded rfl
  | write field v =>
    change P store (o.withField field fun n => o.writeField tx store n v).after
    exact withField_kept (P := P store) h fun n hn => written rfl hn h
  | flush => exact flushed rfl h
  | detach => exact detached h
  | setPlan plan => exact planned plan h
  | makeTransient use =>
    refine applied rfl (by simp) (by simp) ⟨?_, by simp⟩ h
    rintro _ _ ⟨⟩
    rfl
  | _ => exact applied rfl (by simp) (by simp) (by simp) h

/-- No call reaches beyond its instance and the row of that instance. -/
theorem call_own (tx : Transaction) (store : Store) (o : Instance) {c : Call}
    (hc : c.isOrdinary) : Own store o (o.call tx c store).after := by
  refine call_kept (P := fun s a => Own store o (s, a)) hc ?_ ?_ ?_ ?_ ?_ ?_ (Own.refl store o)
  · intro a r _ _ _ _ h
    exact h.trans (apply_own ..)
  · intro _ a a' n _ hl h
    rcases load_cases hl with ⟨_, rfl⟩ | ⟨_, _, rfl⟩
    · exact h
    · exact ⟨h.id, h.other⟩
  · intro field v n _ _ h
    refine writeField_kept (P := fun a => Own store o (store, a)) h (apply_own ..) ?_
    intro _ o' s _ h'
    exact ⟨h'.id, h'.other⟩
  · intro _ _
    exact flush_own store o
  · intro h
    refine detach_kept (P := fun s a => Own store o (s, a)) (T := fun s a => Own store o (s, a))
      h ?_ ?_ ?_
    · intro _
      exact Outcome.meets_self.mpr (flush_own store o)
    · intro _
      exact h
    · intro s a ha
      exact ha.trans (apply_own ..)
  · intro plan h
    exact ⟨h.id, h.other⟩

end Lifecycle.Instance
