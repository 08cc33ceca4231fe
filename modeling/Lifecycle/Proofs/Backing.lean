import Lifecycle.Proofs.Cached
import Lifecycle.Proofs.Enlistment

/-! The rows behind the instances. In a session that keeps to itself the state of an instance tells
whether there is a row for it, and then nothing that is asked of the store can fail. -/
namespace Lifecycle

namespace Instance
variable {tx : Transaction} {store store' : Store} {r : Request} {o : Instance} {f : Failure}

/-- There is a row exactly if the state says so. -/
def Backed (store : Store) (o : Instance) : Prop :=
  (store.row? o.id).isSome = o.state.isStored

/-- The same once the changes are written. -/
def Settled (store : Store) (o : Instance) : Prop :=
  (store.row? o.id).isSome = o.state.keepsRow

/-- Whether an instance is backed is told by its own row. -/
theorem Backed.framed : Framed Backed := by
  intro s t o hrow h
  rw [Backed, hrow]
  exact h

private theorem Settled.framed : Framed Settled := by
  intro s t o hrow h
  rw [Settled, hrow]
  exact h

section Flush

private theorem rowWritten_isSome (hp : o.state.isPersistent) {row? : Option Row}
    (h : row?.isSome = o.state.isStored) : (o.rowWritten row?).isSome = o.state.keepsRow := by
  simp only [rowWritten]
  obtain ⟨id, schema, plan, cache, state, enlisted, connected⟩ := o
  cases state <;> simp_all [State.isPersistent, State.isNew, State.isDeleted, State.isDirty,
    State.keepsRow, State.isStored]
  all_goals
    split <;> simp [h]

private theorem written_of_backed (h : o.Backed store) (hp : o.state.isPersistent) :
    ∃ s, o.written store = .ok s := by
  simp only [Backed] at h
  simp only [written, Store.insert, Store.delete, Store.update]
  obtain ⟨id, schema, plan, cache, state, enlisted, connected⟩ := o
  cases hr : store.row? id <;> cases state <;> simp_all [State.isPersistent, State.isNew,
    State.isDeleted, State.isDirty, State.isStored]
  all_goals
    split <;> simp

/-- The changes of a backed instance can be written, and then the instance is settled. -/
theorem Backed.flush (h : o.Backed store) :
    (o.flush store).Yields (fun p => p.2.Settled p.1) fun _ => False := by
  cases hp : o.state.isPersistent with
  | false =>
    rw [flush_of_not_persistent hp]
    refine Eq.trans h (State.keepsRow_eq_isStored ?_ ?_).symm
    all_goals
      intro hs
      rw [show o.state = _ from hs] at hp
      cases hp
  | true =>
    obtain ⟨s, hs⟩ := written_of_backed h hp
    rcases flush_cases store hp with ⟨f, hw, _⟩ | ⟨s, hw, hf⟩
    · rw [hs] at hw
      cases hw
    · rw [hf]
      change (s.row? o.id).isSome = _
      rw [row?_of_written hw, if_pos rfl]
      exact rowWritten_isSome hp h

end Flush

section Apply

/-- Where there is a row for whoever may load from it, a request fails only by being refused. -/
theorem apply_refused (hr : ∀ use all, r ≠ .makeTransient use all)
    (hb : o.state.isStored = true → (store.row? o.id).isSome = true)
    (h : (o.apply tx store r).answer = .error f) :
    ∃ refusal, transition tx o.schema.identity r o.state = .error refusal ∧
      f = refusal.failure o.id o.state r.operation := by
  rcases apply_error h with hrefused | ⟨m, hm, ⟨e, he, hl⟩, hrow, _⟩
  · exact hrefused
  · cases hs : o.state.isStored with
    | true =>
      have hsome := hb hs
      rw [hrow] at hsome
      cases hsome
    | false =>
      obtain ⟨⟨all, ht⟩, _⟩ := load_of_not_stored hs m hm (List.any_eq_true.mpr ⟨e, he, hl⟩)
      exact absurd ht (hr true all)

private theorem apply_ok_of_granted {m : Move} (hr : ∀ use all, r ≠ .makeTransient use all)
    (hb : o.state.isStored = true → (store.row? o.id).isSome = true)
    (hm : transition tx o.schema.identity r o.state = .ok m) :
    ∃ s, (o.apply tx store r).answer = .ok s := by
  cases ha : (o.apply tx store r).answer with
  | ok s => exact ⟨s, rfl⟩
  | error f =>
    obtain ⟨refusal, hrefused, _⟩ := apply_refused hr hb ha
    rw [hm] at hrefused
    cases hrefused

/-- A stored instance has a row. -/
theorem Backed.row (h : o.Backed store) (hs : o.state.isStored = true) :
    (store.row? o.id).isSome = true :=
  Eq.trans h hs

/-- A request that neither writes nor lets go of the instance leaves it as it is backed. -/
theorem Backed.apply (h : o.Backed store) (hc : r ≠ .commit) (hd : r ≠ .detach)
    (ht : ∀ use all, r ≠ .makeTransient use all) : (o.apply tx store r).after.Backed store := by
  by_cases hb : r = .begin
  · subst hb
    rw [apply_begin]
    split <;> exact h
  rcases apply_cases tx store o hb with ⟨f, ha⟩ | ⟨m, cache, hm, _, ⟨f, _, ha⟩ | ⟨_, ha⟩⟩
  · rw [ha]
    exact h
  · rw [ha]
    exact h
  · rw [ha]
    simp only [Outcome.done, Backed, enter_id, enter_state]
    exact Eq.trans h (next_isStored hc hd ht m hm).symm

private theorem detach_backed (tx : Transaction)
    (h : if o.state.isPersistent && !o.state.isDeleted then (store.row? o.id).isSome = true
      else o.Backed store) : (o.apply tx store .detach).after.Backed store := by
  split at h
  · next hc =>
    simp only [Bool.and_eq_true, Bool.not_eq_true'] at hc
    rw [apply_detach tx store hc.1 hc.2]
    simp only [Outcome.done, Backed, enter_id, enter_state]
    exact h
  · next hc =>
    have hidle : (∃ refusal, transition tx o.schema.identity .detach o.state = .error refusal) ∨
        transition tx o.schema.identity .detach o.state = Move.stay o.state := by
      revert hc
      cases o.state <;> simp [State.isPersistent, State.isDeleted, transition, Transition.detach]
    rcases hidle with ⟨refusal, hm⟩ | hm
    · rw [Instance.apply, hm]
      exact h
    · rw [apply_of_idle hm rfl rfl]
      exact h

private theorem Backed.detach (h : o.Backed store) :
    (o.detach tx store).after.2.Backed (o.detach tx store).after.1 := by
  refine detach_kept (P := fun s a => a.Backed s)
    (T := fun s a => if a.state.isPersistent && !a.state.isDeleted then
      (s.row? a.id).isSome = true else a.Backed s) h ?_ ?_ fun s a => detach_backed tx
  · intro hp
    simp only [hasPendingChanges, Bool.and_eq_true, Bool.not_eq_true'] at hp
    refine (h.flush.and_after (X := fun p => p.2.state = o.state) (flush_state store o)).meets.mono
      ?_ fun _ hf => hf
    rintro p ⟨hsettled, hstate⟩
    rw [if_pos (by simp [hstate, hp])]
    refine Eq.trans hsettled ?_
    rw [hstate]
    exact State.keepsRow_of_isPersistent hp.1.1 hp.2
  · intro hp
    split
    · next hc =>
      simp only [Bool.and_eq_true, Bool.not_eq_true'] at hc
      refine h.row (State.isStored_of_isUnchanged (State.isUnchanged_of_isPersistent hc.1 ?_))
      simpa [hasPendingChanges, hc] using hp
    · exact h

private theorem Backed.call {c : Call} (hc : c.isOrdinary) (hf : c ≠ .flush)
    (ht : ∀ use, c ≠ .makeTransient use) (h : o.Backed store) :
    (o.call tx c store).after.2.Backed (o.call tx c store).after.1 := by
  refine call_kept (P := fun s a => a.Backed s) hc ?_ ?_ ?_ (fun hflush => absurd hflush hf)
    Backed.detach ?_ h
  · intro a r hb hd _ hm ha
    have hcommit : r ≠ .commit := by
      rintro rfl
      cases hb
    exact ha.apply hcommit hd fun use all hr => ht use (hm.1 use all hr)
  · intro _ a a' n _ hl ha
    rcases load_cases hl with ⟨_, rfl⟩ | ⟨_, _, rfl⟩ <;> exact ha
  · intro field v n _ _ ha
    exact writeField_kept (P := fun a => a.Backed store) ha
      (ha.apply (by simp) (by simp) (by simp)) fun _ _ _ _ ho' => ho'
  · intro plan ha
    exact ha

end Apply

end Instance

open Instance

namespace Session
variable {w : Store × Session}

private theorem settled_iff_of_unlisted {tx : Transaction} {o : Instance} (ha : tx.active)
    (h : o.EnlistedExactly tx) (he : o.enlisted = false) (s : Store) :
    o.Settled s ↔ o.Backed s := by
  obtain ⟨ht, _⟩ := h.unlisted ha he
  rw [Settled, Backed, State.keepsRow_eq_isStored]
  all_goals
    intro hs
    rw [hs] at ht
    cases ht

private theorem detaching_settled {tx : Transaction} {s : Store} {o : Instance} (ha : tx.active)
    (hp : o.state.isPersistent) (hd : o.state.isDeleted = false) (he : o.EnlistedExactly tx)
    (h : o.Settled s) :
    (detaching tx s o).Yields (fun p => p.2.EnlistedExactly tx ∧ p.2.Settled p.1)
      fun _ => False := by
  have hrow : (s.row? o.id).isSome = true :=
    Eq.trans h (State.keepsRow_of_isPersistent hp hd)
  refine detaching_yields (Q := fun s a => a.EnlistedExactly tx ∧ a.Settled s)
    (P := fun s a => a.EnlistedExactly tx ∧ a.state.isPersistent ∧ a.state.isDeleted = false ∧
      (s.row? a.id).isSome = true) ?_ ?_
  · obtain ⟨m, hm⟩ := retrieve_granted .loadUnloadedFieldsInFetchPlan ha
    obtain ⟨t, ht⟩ := apply_ok_of_granted (r := .retrieve true) (by simp) (fun _ => hrow) hm
    obtain ⟨hp', hd'⟩ := apply_retrieve_state tx s true o
    refine Outcome.yields_of_ok ht ⟨he.apply (by simp), hp'.trans hp, hd'.trans hd, ?_⟩
    rw [(apply_frame tx s (.retrieve true) o).1]
    exact hrow
  · rintro a ⟨he', hp', hd', hrow'⟩
    have hexact : (a.apply tx s .detach).after.EnlistedExactly tx := he'.apply (by simp)
    rw [apply_detach tx s hp' hd'] at hexact ⊢
    refine ⟨hexact, ?_⟩
    simp only [Outcome.done, Settled, enter_id, enter_state]
    exact hrow'

private theorem commit_settled {tx : Transaction} {s : Store} {o : Instance} {t : State}
    (h : o.Settled s) (ht : (o.apply tx s .commit).answer = .ok t) :
    (o.apply tx s .commit).after.Backed s := by
  -- The end of a commit takes the states to where the rows are already.
  obtain ⟨m, hm, hnext⟩ := apply_next (by simp) ht
  rw [Backed, hnext, (apply_frame tx s .commit o).1, next_of_commit_isStored m hm]
  exact h

/-- With exact enlistment and everyone backed a commit has nothing to fail for. -/
theorem commit_backed (ha : w.2.tx.active)
    (h : Everywhere (fun tx s o => o.EnlistedExactly tx ∧ o.Backed s) w) :
    (commit w).Yields (Holds { w.2.tx with active := false } Backed) fun _ => False := by
  have hT : Framed fun s o => o.EnlistedExactly w.2.tx ∧ o.Settled s :=
    fun s t o hrow ho => ⟨ho.1, Settled.framed hrow ho.2⟩
  refine commit_yields (T := fun s o => o.EnlistedExactly w.2.tx ∧ o.Settled s)
    (D := fun s o => o.EnlistedExactly w.2.tx ∧ o.Settled s) ?_ hT hT Backed.framed h ha
    ?_ ?_ ?_ ?_ ?_ ?_
  · exact fun s t o hrow ho => ⟨ho.1, Backed.framed hrow ho.2⟩
  · rintro s o _ ⟨he, hb⟩
    exact (hb.flush.and_after (X := fun p => p.2.EnlistedExactly w.2.tx) he.flush).mono
      fun _ hp => hp.symm
  · rintro s o hout ⟨he, hb⟩
    exact ⟨he, (settled_iff_of_unlisted ha he hout s).mpr hb⟩
  · rintro _ s o hp hd ⟨he, hs⟩
    exact detaching_settled ha hp hd he hs
  · exact fun _ _ _ ho => ho
  · rintro s o hin ⟨he, hs⟩
    obtain ⟨t, ht⟩ := he.end_ok s hin (.inl rfl)
    exact Outcome.yields_of_ok ht (commit_settled hs ht)
  · rintro s o hout ⟨he, hs⟩
    exact (settled_iff_of_unlisted ha he hout s).mp hs

end Session

/-- What is done in a session that has its store to itself. A new instance gets an identity without
a row, and no instance is flushed by hand or released from its row. -/
def wellBehaved (w : World) : Event → Prop
  | .foreign _ => False
  | .call (.object _ c) => c.isOrdinary = true ∧ c ≠ .flush ∧ ∀ use, c ≠ .makeTransient use
  | .call (.persist _ _) => w.store.row? w.ids.peek = none
  | .call c => c.isOrdinary = true

private theorem wellBehaved.ordinary {w : World} {e : Event} (h : wellBehaved w e) :
    e.isOrdinary := by
  cases e with
  | foreign store => rfl
  | call c =>
    cases c with
    | object id c => exact h.1
    | persist schema values => rfl
    | _ => exact h

namespace Instance

private theorem Backed.created {store : Store} {id : ObjectId} {schema : Schema}
    {values : List Value} {o : Instance} (hc : Instance.create id schema values = .ok o)
    (hrow : store.row? id = none) : o.Backed store := by
  rw [create_eq_ok hc]
  exact congrArg Option.isSome hrow

private theorem Backed.found {store : Store} {id : ObjectId} {schema : Schema} {o : Instance}
    (hf : Instance.hollow store id schema = .ok o) : o.Backed store := by
  obtain ⟨row, hrow, rfl⟩ := hollow_eq_ok hf
  exact congrArg Option.isSome hrow

private theorem Backed.kept :
    Kept wellBehaved (fun tx _ o => o.EnlistedExactly tx) fun _ => Backed where
  ordinary he := he.ordinary
  framed _ := Backed.framed
  foreign hp _ := hp.elim
  persisted hp hc := (Backed.created hc hp).apply (by simp) (by simp) (by simp)
  found hf := Backed.found hf
  called hp _ _ h := h.call hp.1 hp.2.1 hp.2.2
  evicted h := h.apply (by simp) (by simp) (by simp)
  begun _ h := h.apply (by simp) (by simp) (by simp)
  committed := by
    intro w _ ha h
    have hc := (Session.commit_backed (w := w.pair) ha h).mono fun _ hp =>
      Session.Holds.everywhere (I := fun _ => Backed) hp
    exact Outcome.meets_self.mp hc.meets
  rolledBack _ ha h := Session.rollback_keeps Backed.framed ha (h.mono fun _ _ ho => ho.2)
    fun _ _ ho => ho.apply (by simp) (by simp) (by simp)

end Instance

namespace Reached
variable {w : World}

/-- Nothing that is well behaved is out of the ordinary. -/
theorem of_wellBehaved (h : Reached wellBehaved w) : Reached Lifecycle.ordinary w :=
  h.mono fun _ _ _ he => he.ordinary

/-- In a session that has its store to itself everyone is backed. -/
theorem backed (h : Reached wellBehaved w) : Session.Everywhere (fun _ => Backed) w.pair :=
  Backed.kept.everywhere (fun hv => hv.of_wellBehaved.enlistedExactly.each) h

end Reached

end Lifecycle
