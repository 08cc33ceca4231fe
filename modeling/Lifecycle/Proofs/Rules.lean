import Lifecycle.Proofs.Access
import Lifecycle.Proofs.Managed

/-! One rule for each call of a session: what has to be shown of the single instances for a property
of all of them to pass through the call. -/
namespace Lifecycle

namespace Transaction
variable {tx tx' : Transaction}

/-- A transaction can be begun if none is open, and keeps its options. -/
theorem begin_eq_ok (h : tx.begin = .ok tx') :
    tx.active = false ∧ tx'.active = true ∧ tx'.options = tx.options := by
  simp only [begin] at h
  split at h <;> cases h
  next ha => exact ⟨by simpa using ha, rfl, rfl⟩

/-- A transaction that is finished is closed, and is otherwise as it was. -/
theorem finish_eq_ok (h : tx.finish = .ok tx') : tx' = { tx with active := false } := by
  simp only [finish] at h
  split at h <;> cases h
  rfl

end Transaction

namespace Session
variable {tx : Transaction} {P Q T E : Store → Instance → Prop} {w : Store × Session}

/-- A visit that is one transition works on its instance alone. -/
theorem applying_own {r : Request} (s : Store) (o : Instance) :
    Own s o (applying tx r s o).after :=
  Instance.apply_own tx s r o

private theorem applying_of_either {r : Request} {s : Store} {o : Instance}
    (h : (o.apply tx s r).Meets (Q s) fun a => P s a ∨ Q s a) :
    (applying tx r s o).Meets (fun p => Q p.1 p.2) fun p => P p.1 p.2 ∨ Q p.1 p.2 :=
  Outcome.meets_within.mpr (Outcome.meets_map.mpr h)

private theorem applying_of_after {r : Request} {s : Store} {o : Instance}
    (h : Q s (o.apply tx s r).after) :
    (applying tx r s o).Meets (fun p => Q p.1 p.2) fun p => P p.1 p.2 ∨ Q p.1 p.2 :=
  applying_of_either (Outcome.meets_of_after h)

/-- A visit by which an instance is detached works on that instance alone. -/
theorem detaching_own (s : Store) (o : Instance) :
    Own s o (detaching tx s o).after := by
  refine Outcome.meets_self.mp ?_
  refine (Outcome.meets_self.mpr (applying_own s o)).andThen ?_
  intro p _ hp
  exact Outcome.meets_self.mpr (hp.trans (applying_own p.1 p.2))

/-- Detaching takes two steps. -/
theorem detaching_yields {F : Failure → Prop} {s : Store} {o : Instance}
    (retrieved : (o.apply tx s (.retrieve true)).Yields (P s) F)
    (detached : ∀ a, P s a → (a.apply tx s .detach).Yields (Q s) F) :
    (detaching tx s o).Yields (fun p => Q p.1 p.2) F := by
  have hr : (applying tx (.retrieve true) s o).Yields (fun p => p.1 = s ∧ P s p.2) F :=
    Outcome.yields_within.mpr
      (Outcome.yields_map.mpr (retrieved.mono fun _ h => ⟨rfl, h⟩))
  refine hr.andThen ?_
  rintro ⟨s', a⟩ _ ⟨rfl, ha⟩
  exact Outcome.yields_within.mpr (Outcome.yields_map.mpr (detached a ha))

/-- The end of a transaction touches nothing but the transaction. -/
theorem finish_eq (w : Store × Session) :
    finish w =
      if w.2.tx.active then
        .done (w.1, { w.2 with tx := { w.2.tx with active := false } }) w.2.tx.current
      else .failed w .transactionNotActive := by
  rw [finish, Transaction.finish]
  cases w.2.tx.active <;> rfl

private theorem finish_answer {n : UInt64} (h : (finish w).answer = .ok n) :
    n = w.2.tx.current := by
  rw [finish_eq] at h
  split at h <;> cases h
  rfl

private theorem finish_meets (h : Holds tx Q w) (ha : tx.active) :
    (finish w).Meets (Holds { tx with active := false } Q) (Holds tx E) := by
  rw [finish_eq, h.tx, if_pos ha]
  exact ⟨rfl, h.sorted, h.each⟩

section Steps
variable {F D C X : Store × Session → Prop}

/-- Without a transaction there is nothing to commit. -/
theorem commit_of_inactive (ha : w.2.tx.active = false) :
    commit w = .failed w .transactionNotActive := by
  simp [commit, ifActive, ha]

/-- A commit that succeeds had a transaction. -/
theorem active_of_commit {n : UInt64} (h : (commit w).answer = .ok n) : w.2.tx.active = true := by
  cases ha : w.2.tx.active with
  | true => rfl
  | false =>
    rw [commit_of_inactive ha] at h
    cases h

/-- A commit takes four steps, each from where the one before ended. The second is left out unless
everything is to be detached. -/
theorem commit_steps (ha : w.2.tx.active)
    (flushed : (sweepWhere (·.enlisted) (fun s o => o.flush s) w).Meets F X)
    (detached : ∀ v, F v → (sweepWhere (fun o => o.state.isPersistent && !o.state.isDeleted)
      (detaching w.2.tx) v).Meets F X)
    (ended : ∀ v, F v → (sweepWhere (·.enlisted) (applying w.2.tx .commit) v).Meets D X)
    (finished : ∀ v, D v → (finish v).Meets C X) : (commit w).Meets C X := by
  simp only [commit, ifActive, ha, ↓reduceIte]
  refine flushed.andThen fun w₁ _ h₁ => ?_
  refine Outcome.Meets.andThen (Q := F) ?_ fun w₂ _ h₂ => ?_
  · split
    · exact detached w₁ h₁
    · exact h₁
  · exact (ended w₂ h₂).andThen fun w₃ _ h₃ => finished w₃ h₃

/-- Without a transaction there is nothing to roll back. -/
theorem rollback_of_inactive (ha : w.2.tx.active = false) :
    rollback w = .failed w .transactionNotActive := by
  simp [rollback, ifActive, ha]

/-- A rollback that succeeds had a transaction. -/
theorem active_of_rollback {n : UInt64} (h : (rollback w).answer = .ok n) :
    w.2.tx.active = true := by
  cases ha : w.2.tx.active with
  | true => rfl
  | false =>
    rw [rollback_of_inactive ha] at h
    cases h

/-- A rollback takes two steps, the second from where the first ended. -/
theorem rollback_steps (ha : w.2.tx.active)
    (ended : (sweepWhere (·.enlisted) (applying w.2.tx .rollback) w).Meets D X)
    (finished : ∀ v, D v → (finish v).Meets C X) : (rollback w).Meets C X := by
  simp only [rollback, ifActive, ha, ↓reduceIte]
  exact ended.andThen fun v _ hv => finished v hv

end Steps

/-- In an open transaction none can be begun. -/
theorem begin_of_active (ha : w.2.tx.active = true) :
    begin w = .failed w .transactionAlreadyActive := by
  simp [begin, Transaction.begin, ha]

private theorem telling_ok (tx' : Transaction) (hP : Framed P) (h : Holds tx P w) :
    (sweepWhere (fun _ => true) (applying tx' .begin) w).answer = .ok () := by
  refine sweepWhere_ok _ _ hP applying_own ?_ h
  intro s o _ _
  rw [applying, Instance.apply_begin]
  split <;> rfl

/-- A transaction begins unless one is open. -/
theorem begin_ok (hs : ById.Sorted Instance.id w.2.objects) (ha : w.2.tx.active = false) :
    ∃ n, (begin w).answer = .ok n := by
  cases hb : w.2.tx.begin with
  | error f => simp [Transaction.begin, ha] at hb
  | ok tx' =>
    have htold : Holds tx' (fun _ _ => True) (w.1, { w.2 with tx := tx' }) :=
      ⟨rfl, hs, fun _ _ => trivial⟩
    have hok := telling_ok tx' (fun _ _ _ _ _ => trivial) htold
    refine ⟨tx'.current, ?_⟩
    simp only [begin, hb, Outcome.map, hok]
    rfl

/-- Nothing but an open transaction keeps one from being begun. -/
theorem begin_error {f : Failure} (hs : ById.Sorted Instance.id w.2.objects)
    (h : (begin w).answer = .error f) : f = .transactionAlreadyActive := by
  cases ha : w.2.tx.active with
  | true =>
    rw [begin_of_active ha] at h
    cases h
    rfl
  | false =>
    obtain ⟨n, hn⟩ := begin_ok hs ha
    rw [hn] at h
    cases h

/-- A transaction that begins leads every instance from `P` to `Q`. -/
theorem begin_meets {Q : Transaction → Store → Instance → Prop} (hP : Framed P)
    (hQ : ∀ tx, Framed (Q tx)) (h : Holds tx P w)
    (told : ∀ tx' s o, tx.begin = .ok tx' → P s o → Q tx' s (o.apply tx' s .begin).after) :
    (begin w).Meets (fun w' => ∃ tx', tx.begin = .ok tx' ∧ Holds tx' (Q tx') w') (Holds tx P) := by
  rw [begin, h.tx]
  cases hb : tx.begin with
  | error f => exact h
  | ok tx' =>
    have hw : Holds tx' P (w.1, { w.2 with tx := tx' }) := ⟨rfl, h.sorted, h.each⟩
    have hok := telling_ok tx' hP hw
    have hm := sweepWhere_meets (fun _ => true) (applying tx' .begin) hP
      (hQ tx') applying_own
      (fun s o _ ho => applying_of_after (told tx' s o hb ho))
      (by intro s o hp; cases hp) hw
    refine Outcome.meets_map.mpr ?_
    simp only [Outcome.Meets, hok] at hm ⊢
    exact ⟨tx', rfl, hm⟩

/-- Whoever commits a transaction is told its number. -/
theorem commit_answer {n : UInt64} (ha : w.2.tx.active) (h : (commit w).answer = .ok n) :
    n = w.2.tx.current := by
  simp only [commit, ifActive, ha, ↓reduceIte] at h
  obtain ⟨_, _, hdetached⟩ := Outcome.ok_of_andThen h
  obtain ⟨_, _, hended⟩ := Outcome.ok_of_andThen hdetached
  obtain ⟨_, _, hfinished⟩ := Outcome.ok_of_andThen hended
  refine (finish_answer hfinished).trans ?_
  split <;> rfl

/-- Commit. Between the flushes and the end every instance is settled, which is `T`. -/
theorem commit_meets (hP : Framed P) (hT : Framed T) (hQ : Framed Q) (h : Holds tx P w)
    (ha : tx.active)
    (flushed : ∀ s o, o.enlisted → P s o →
      (o.flush s).Meets (fun p => T p.1 p.2) fun p => P p.1 p.2)
    (skipped : ∀ s o, o.enlisted = false → P s o → T s o)
    (detached : ∀ s o r, r = .retrieve true ∨ r = .detach → T s o → T s (o.apply tx s r).after)
    (ended : ∀ s o, o.enlisted → T s o →
      (o.apply tx s .commit).Meets (Q s) fun a => T s a ∨ Q s a)
    (kept : ∀ s o, o.enlisted = false → T s o → Q s o) :
    (commit w).Meets (Holds { tx with active := false } Q)
      (Holds tx fun s o => P s o ∨ T s o ∨ Q s o) := by
  obtain rfl := h.tx
  refine commit_steps ha (F := Holds w.2.tx T) (D := Holds w.2.tx Q) ?_ ?_ ?_ ?_
  · have hf := sweepWhere_meets (·.enlisted) (fun s o => o.flush s) hP hT Instance.flush_own
      (fun s o hp ho => (flushed s o hp ho).mono (fun _ h => h) fun _ h => .inl h) skipped h
    refine hf.mono (fun _ h => h) fun v hv => hv.mono fun o _ ho => ?_
    rcases ho with ho | ho
    · exact .inl ho
    · exact .inr (.inl ho)
  · intro v hv
    have hd := sweepWhere_meets (fun o => o.state.isPersistent && !o.state.isDeleted)
      (detaching w.2.tx) hT hT detaching_own
      (by
        intro s o _ ho
        refine (applying_of_after (P := T) (detached s o _ (.inl rfl) ho)).andThen ?_
        intro p _ hp
        exact applying_of_after (detached p.1 p.2 _ (.inr rfl) hp))
      (fun _ _ _ ho => ho) hv
    exact hd.mono (fun _ h => h) fun v hv => hv.mono fun o _ ho => .inr (.inl (ho.elim id id))
  · intro v hv
    have he := sweepWhere_meets (·.enlisted) (applying w.2.tx .commit) hT hQ applying_own
      (fun s o hp ho => applying_of_either (ended s o hp ho)) kept hv
    exact he.mono (fun _ h => h) fun v hv => hv.mono fun o _ ho => .inr ho
  · intro v hv
    exact finish_meets hv ha

/-- Commit, if nothing is asked of what a failure leaves behind. `T` holds after the flushes, and
`D` once everything is detached that is to be. -/
theorem commit_yields {D : Store → Instance → Prop} {F : Failure → Prop} (hP : Framed P)
    (hT : Framed T) (hD : Framed D) (hQ : Framed Q) (h : Holds tx P w) (ha : tx.active)
    (flushed : ∀ s o, o.enlisted → P s o → (o.flush s).Yields (fun p => T p.1 p.2) F)
    (skipped : ∀ s o, o.enlisted = false → P s o → T s o)
    (detached : tx.options.detachAllOnCommit → ∀ s o, o.state.isPersistent →
      o.state.isDeleted = false → T s o → (detaching tx s o).Yields (fun p => D p.1 p.2) F)
    (spared : ∀ s o, (tx.options.detachAllOnCommit && o.state.isPersistent && !o.state.isDeleted)
      = false → T s o → D s o)
    (ended : ∀ s o, o.enlisted → D s o → (o.apply tx s .commit).Yields (Q s) F)
    (kept : ∀ s o, o.enlisted = false → D s o → Q s o) :
    (commit w).Yields (Holds { tx with active := false } Q) F := by
  obtain rfl := h.tx
  simp only [commit, ifActive, ha, ↓reduceIte]
  have hf := sweepWhere_yields (·.enlisted) (fun s o => o.flush s) hP hT Instance.flush_own
    flushed skipped h
  refine hf.andThen fun w₁ _ h₁ => ?_
  refine Outcome.Yields.andThen (Q := Holds w.2.tx D) ?_ fun w₂ _ h₂ => ?_
  · split
    · next hall =>
      refine sweepWhere_yields _ (detaching w.2.tx) hT hD detaching_own ?_ ?_ h₁
      · intro s o hp ho
        simp only [Bool.and_eq_true, Bool.not_eq_true'] at hp
        exact detached hall s o hp.1 hp.2 ho
      · intro s o hp ho
        exact spared s o (by rw [Bool.and_assoc, hp, Bool.and_false]) ho
    · next hall => exact h₁.mono fun o _ ho => spared w₁.1 o (by simp [hall]) ho
  · have he := sweepWhere_yields (·.enlisted) (applying w.2.tx .commit) hD hQ applying_own
      (fun s o hp ho => Outcome.yields_within.mpr (Outcome.yields_map.mpr (ended s o hp ho)))
      kept h₂
    refine he.andThen fun w₃ _ h₃ => ?_
    rw [finish_eq, h₃.tx, if_pos ha]
    exact ⟨rfl, h₃.sorted, h₃.each⟩

/-- A rollback leads the enlisted instances from `P` to `Q`, if the others are there already. -/
theorem rollback_meets (hP : Framed P) (hQ : Framed Q) (h : Holds tx P w) (ha : tx.active)
    (undone : ∀ s o, o.enlisted → P s o →
      (o.apply tx s .rollback).Meets (Q s) fun a => P s a ∨ Q s a)
    (kept : ∀ s o, o.enlisted = false → P s o → Q s o) :
    (rollback w).Meets (Holds { tx with active := false } Q)
      (Holds tx fun s o => P s o ∨ Q s o) := by
  obtain rfl := h.tx
  refine rollback_steps ha ?_ fun v hv => finish_meets hv ha
  exact sweepWhere_meets (·.enlisted) (applying w.2.tx .rollback) hP hQ applying_own
    (fun s o hp ho => applying_of_either (undone s o hp ho)) kept h

/-- A rollback whose visits succeed ends the transaction. -/
theorem rollback_of_ok (ha : w.2.tx.active)
    (hok : (sweepWhere (·.enlisted) (applying w.2.tx .rollback) w).answer = .ok ()) :
    rollback w = .done ((sweepWhere (·.enlisted) (applying w.2.tx .rollback) w).after.1,
      ⟨{ w.2.tx with active := false },
        (sweepWhere (·.enlisted) (applying w.2.tx .rollback) w).after.2.objects⟩)
      w.2.tx.current := by
  have htx : (sweepWhere (·.enlisted) (applying w.2.tx .rollback) w).after.2.tx = w.2.tx := rfl
  simp only [rollback, ifActive, ha, ↓reduceIte]
  revert hok htx
  generalize sweepWhere (·.enlisted) (applying w.2.tx .rollback) w = r
  obtain ⟨⟨s, session⟩, answer⟩ := r
  rintro ⟨⟩ htx
  simp only at htx
  simp only [Outcome.andThen, finish_eq, htx, ha, ↓reduceIte]

/-- What survives the eviction of each instance survives that of all. -/
theorem evictAll_meets (hP : Framed P) (h : Holds tx P w)
    (evicted : ∀ s o, P s o → P s (o.apply tx s .evict).after) :
    (evictAll w).Meets (Holds tx P) (Holds tx P) := by
  rw [evictAll, h.tx]
  have hm := sweepWhere_meets (fun o => o.state.isPersistent && !o.state.isDirty)
    (applying tx .evict) hP hP applying_own
    (fun s o _ ho => applying_of_after (evicted s o ho))
    (fun _ _ _ ho => ho) h
  exact hm.mono (fun _ h => h) fun w' h' => h'.mono fun o _ ho => ho.elim id id

/-- Clean values can always be dropped. -/
theorem evictAll_ok (hs : ById.Sorted Instance.id w.2.objects) :
    (evictAll w).answer = .ok () := by
  have hall : Holds w.2.tx (fun _ _ => True) w := ⟨rfl, hs, fun _ _ => trivial⟩
  refine sweepWhere_ok _ _ (fun _ _ _ _ _ => trivial) applying_own ?_ hall
  intro s o hp _
  simp only [Bool.and_eq_true, Bool.not_eq_true'] at hp
  obtain ⟨m, hm, hl⟩ := evict_granted w.2.tx o.schema.identity hp.1 hp.2
  obtain ⟨t, ht⟩ := Instance.apply_ok_of_loadless s hm hl
  simp only [applying, Outcome.within, Outcome.map, ht]
  rfl

/-- A new instance joins the others. -/
theorem persist_meets {id : ObjectId} {schema : Schema} {values : List Value} (hP : Framed P)
    (h : Holds tx P w)
    (made : ∀ o, Instance.create id schema values = .ok o →
      P w.1 (o.apply tx w.1 .makePersistent).after) :
    (persist id schema values w).Meets (Holds tx P) (Holds tx P) := by
  rw [persist, h.tx]
  cases hc : Instance.create id schema values with
  | error f => exact h
  | ok o =>
    have hm := made o hc
    simp only
    split
    · exact h
    · exact h.manage hP (fun _ _ => rfl) hm

/-- An instance that is found joins the others. -/
theorem find_meets {id : ObjectId} {schema : Schema} (hP : Framed P) (h : Holds tx P w)
    (found : ∀ o, Instance.hollow w.1 id schema = .ok o → P w.1 o) :
    (find schema id w).Meets (Holds tx P) (Holds tx P) := by
  rw [find]
  split
  · exact h
  · cases hf : Instance.hollow w.1 id schema with
    | error f => exact h
    | ok o => exact h.manage hP (fun _ _ => rfl) (found o hf)

section

private def InTransaction (tx : Transaction) (w : Store × Session) : Prop :=
  w.2.tx = tx

private theorem sweepWhere_tx {p : Instance → Bool}
    {visit : Store → Instance → Outcome (Store × Instance) Unit} (h : InTransaction tx w) :
    (sweepWhere p visit w).Meets (InTransaction tx) (InTransaction tx) :=
  Outcome.meets_self.mpr h

private theorem finish_tx (h : InTransaction tx w) :
    (finish w).Meets (InTransaction { tx with active := false }) (InTransaction tx) := by
  obtain rfl : w.2.tx = tx := h
  rw [finish_eq]
  split <;> rfl

theorem begin_options : (begin w).after.2.tx.options = w.2.tx.options := by
  rw [begin]
  split
  · rfl
  · next tx htx => exact (Transaction.begin_eq_ok htx).2.2

private theorem options_of_end {o : Outcome (Store × Session) UInt64}
    (h : o.Meets (fun v => v.2.tx = { tx with active := false }) fun v => v.2.tx = tx) :
    o.after.2.tx.options = tx.options := by
  refine (Outcome.meets_self (Q := fun v : Store × Session =>
    v.2.tx.options = tx.options)).mp (h.mono ?_ ?_)
  · intro v hv
    rw [hv]
  · intro v hv
    rw [hv]

/-- A commit that fails leaves the transaction open. -/
theorem commit_tx : (commit w).Meets (fun v => v.2.tx = { w.2.tx with active := false })
    fun v => v.2.tx = w.2.tx := by
  cases ha : w.2.tx.active with
  | true =>
    exact commit_steps ha (F := InTransaction w.2.tx) (D := InTransaction w.2.tx)
      (sweepWhere_tx rfl) (fun _ hv => sweepWhere_tx hv) (fun _ hv => sweepWhere_tx hv)
      fun _ hv => finish_tx hv
  | false =>
    rw [commit_of_inactive ha]
    exact rfl

theorem commit_options : (commit w).after.2.tx.options = w.2.tx.options :=
  options_of_end commit_tx

private theorem rollback_tx : (rollback w).Meets (fun v => v.2.tx = { w.2.tx with active := false })
    fun v => v.2.tx = w.2.tx := by
  cases ha : w.2.tx.active with
  | true =>
    exact rollback_steps ha (D := InTransaction w.2.tx) (sweepWhere_tx rfl)
      fun _ hv => finish_tx hv
  | false =>
    rw [rollback_of_inactive ha]
    exact rfl

theorem rollback_options : (rollback w).after.2.tx.options = w.2.tx.options :=
  options_of_end rollback_tx

theorem persist_tx {id : ObjectId} {schema : Schema} {values : List Value} :
    (persist id schema values w).after.2.tx = w.2.tx := by
  rw [persist]
  split
  · rfl
  · simp only
    split <;> rfl

theorem find_tx {id : ObjectId} {schema : Schema} : (find schema id w).after.2.tx = w.2.tx := by
  rw [find]
  split
  · rfl
  · split <;> rfl

end

end Session

end Lifecycle
