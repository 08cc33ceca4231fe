import Lifecycle.Proofs.FailedCommit

/-! Who writes to the store. Within a transaction nothing is written before the commit, unless an
instance is flushed by hand. Outside of one a detachment writes too, the row of its instance. -/
namespace Lifecycle

namespace Instance
variable {tx : Transaction} {store : Store} {o : Instance}

/-- Detaching writes nothing where a rollback may still come, and where nothing is pending. -/
theorem detach_store (h : tx.active = true ∨ o.hasPendingChanges = false) :
    (o.detach tx store).after.1 = store := by
  rw [detach]
  split
  · next hp =>
    rw [if_pos (h.resolve_right (by simp [hp]))]
    rfl
  · rfl

/-- The only calls that write are a flush, and a detachment that has to flush. -/
theorem call_store {c : Call} (hf : c ≠ .flush)
    (hd : c = .detach → tx.active = true ∨ o.hasPendingChanges = false) :
    (o.call tx c store).after.1 = store := by
  cases c with
  | flush => exact absurd rfl hf
  | detach => exact detach_store (hd rfl)
  | _ => rfl

end Instance

namespace Session

/-- The call is made to write changes to the store. -/
def Call.isWrite : Session.Call → Bool
  | commit | object _ .flush => true
  | _ => false

variable {w : Store × Session}

/-- A transaction begins without a change of the store. -/
theorem begin_store (w : Store × Session) : (begin w).after.1 = w.1 := by
  rw [begin]
  split
  · rfl
  · exact sweepWhere_store _ _ (fun _ _ => rfl) _

private theorem persist_store {id : ObjectId} {schema : Schema} {values : List Value} :
    (persist id schema values w).after.1 = w.1 := by
  rw [persist]
  split
  · rfl
  · simp only
    split <;> rfl

/-- An instance is found without a change of the store. -/
theorem find_store {id : ObjectId} {schema : Schema} : (find schema id w).after.1 = w.1 := by
  rw [find]
  split
  · rfl
  · split <;> rfl

end Session

namespace World
variable {w : World} {c : Session.Call}

/-- What is not made to write does not write, but for a detachment of pending changes outside any
transaction. -/
theorem call_store (hc : c.isWrite = false)
    (hd : ∀ id o, c = .object id .detach → w.session.object id = .ok o →
      w.session.tx.active = true ∨ o.hasPendingChanges = false) :
    (w.call c).after.store = w.store := by
  cases c with
  | begin => exact Session.begin_store w.pair
  | commit => cases hc
  | rollback => exact Session.rollback_store w.pair
  | persist schema values =>
    change (w.call (.persist schema values)).after.pair.1 = _
    rw [call_persist, Session.persist_store]
    rfl
  | find schema id => exact Session.find_store
  | evictAll => exact Session.sweepWhere_store _ _ (fun _ _ => rfl) _
  | object id c =>
    change (w.onObject id c).after.store = _
    rw [onObject]
    split
    · rfl
    · next o ho =>
      refine Instance.call_store ?_ ?_
      · rintro rfl
        cases hc
      · rintro rfl
        exact hd id o rfl ho
  | beginTransaction | finishTransaction =>
    simp only [call, onTransaction]
    split <;> rfl

/-- A run within a transaction leaves the transaction open and the store alone. -/
theorem run_within {calls : List Session.Call} (ha : w.session.tx.active = true)
    (h : ∀ c ∈ calls, c.isOrdinary ∧ c.isWrite = false ∧ c ≠ .rollback) :
    (w.run calls).session.tx = w.session.tx ∧ (w.run calls).store = w.store := by
  induction calls generalizing w with
  | nil => exact ⟨rfl, rfl⟩
  | cons c rest ih =>
    simp only [List.forall_mem_cons] at h
    obtain ⟨⟨hord, hwrite, hrollback⟩, hrest⟩ := h
    have hcommit : c ≠ .commit := by
      rintro rfl
      cases hwrite
    have htx := call_active hord hcommit hrollback ha
    have hstore : (w.call c).after.store = w.store :=
      call_store hwrite fun _ _ _ _ => .inl ha
    obtain ⟨htx', hstore'⟩ := ih (w := (w.call c).after) (by rw [htx]; exact ha) hrest
    exact ⟨htx'.trans htx, hstore'.trans hstore⟩

private theorem writer_of_inactive (ha : w.session.tx.active = false)
    (hne : (w.call c).after.store ≠ w.store) :
    ∃ id o, w.session.object id = .ok o ∧
      (c = .object id .flush ∨ c = .object id .detach ∧ o.hasPendingChanges = true) := by
  -- Outside any transaction a commit is refused, so that only calls on one instance write.
  refine Classical.byContradiction fun hnone => hne ?_
  cases hw : c.isWrite with
  | false =>
    refine call_store hw ?_
    rintro id o rfl ho
    refine .inr ?_
    cases hp : o.hasPendingChanges with
    | false => rfl
    | true => exact absurd ⟨id, o, ho, .inr ⟨rfl, hp⟩⟩ hnone
  | true =>
    cases c with
    | commit =>
      change (Session.commit w.pair).after.1 = _
      rw [Session.commit_of_inactive (w := w.pair) ha]
      rfl
    | object id c =>
      cases c with
      | flush =>
        change (w.onObject id .flush).after.store = _
        rw [onObject]
        split
        · rfl
        · next o ho => exact absurd ⟨id, o, ho, .inl rfl⟩ hnone
      | _ => cases hw
    | _ => cases hw

/-- A call on one instance leaves the rows of all others alone. -/
theorem onObject_other {id other : ObjectId} {c : Instance.Call} (hc : c.isOrdinary)
    (hne : other ≠ id) : (w.onObject id c).after.store.row? other = w.store.row? other := by
  rw [onObject]
  split
  · rfl
  · next o ho =>
    have hown := Instance.call_own w.session.tx w.store o hc
    refine hown.other other ?_
    rw [(Session.object_eq_ok ho).2]
    exact hne

end World

/-- Whoever begins a transaction is told its number. -/
theorem Session.begin_answer {w : Store × Session} {n : UInt64} (h : (begin w).answer = .ok n) :
    (begin w).after.2.tx.active = true ∧ (begin w).after.2.tx.current = n := by
  cases hb : w.2.tx.begin with
  | error f =>
    simp only [begin, hb] at h
    cases h
  | ok tx =>
    simp only [begin, hb] at h ⊢
    obtain ⟨_, _, hn⟩ := Outcome.ok_of_map h
    exact ⟨(Transaction.begin_eq_ok hb).2.1, hn⟩

/-- Nothing of an open transaction is seen in the store. While it is open, only its commit and a
flush by hand change a row, so that from its beginning to its rollback the store stays the same.
While none is open, the only other writer is a detachment, of an instance with pending changes, and
it writes the row of that instance alone. -/
theorem transaction_isolated {w : World} (h : Reached ordinary w) :
    (w.session.tx.active = true → ∀ c : Session.Call, c.isOrdinary → c.isWrite = false →
      (w.call c).after.store = w.store) ∧
    (w.session.tx.active = false → ∀ c : Session.Call, c.isOrdinary →
      (w.call c).after.store ≠ w.store → ∃ id o, w.session.object id = .ok o ∧
        (c = .object id .flush ∨ c = .object id .detach ∧ o.state.isPersistent = true ∧
          o.state.isDirty = true ∧ o.state.isDeleted = false) ∧
        ∀ other, other ≠ id → (w.call c).after.store.row? other = w.store.row? other) ∧
    ∀ (calls : List Session.Call) (a : Answer), (w.call .begin).answer = .ok a →
      (∀ c ∈ calls, c.isOrdinary ∧ c.isWrite = false ∧ c ≠ .rollback) →
      (((w.call .begin).after.run calls).call .rollback).answer = .ok a ∧
        (((w.call .begin).after.run calls).call .rollback).after.store = w.store := by
  refine ⟨?_, ?_, ?_⟩
  · intro ha c _ hc
    exact World.call_store hc fun _ _ _ _ => .inl ha
  · intro ha c hord hne
    obtain ⟨id, o, ho, hc⟩ := World.writer_of_inactive ha hne
    refine ⟨id, o, ho, hc.imp (fun hf => hf) ?_, ?_⟩
    · rintro ⟨hd, hp⟩
      simpa [Instance.hasPendingChanges, and_assoc] using And.intro hd hp
    · intro other hother
      rcases hc with rfl | ⟨rfl, _⟩ <;> exact World.onObject_other rfl hother
  · intro calls a hbegin hcalls
    obtain ⟨n, hn, rfl⟩ := Outcome.ok_of_map hbegin
    obtain ⟨hactive, hcurrent⟩ := Session.begin_answer hn
    obtain ⟨htx, hstore⟩ := World.run_within (w := (w.call .begin).after) hactive hcalls
    have hreached : Reached ordinary ((w.call .begin).after.run calls) :=
      (h.step (e := .call .begin) rfl).run fun c hc => (hcalls c hc).1
    have hok := Session.rollback_ok (w := ((w.call .begin).after.run calls).pair)
      ((congrArg (·.active) htx).trans hactive) hreached.enlistedExactly
    constructor
    · refine (congrArg (Except.map Answer.cycle) hok).trans ?_
      exact congrArg (Except.ok ∘ Answer.cycle) ((congrArg (·.current) htx).trans hcurrent)
    · exact (Session.rollback_store _).trans (hstore.trans (Session.begin_store w.pair))

def pendingOutside : World :=
  Sample.run { Options.standard with nontransactionalWrite := true, retainValues := true }
    [.begin, .persist Sample.account [.text "A-1", .integer 10], .commit,
      .object Sample.first (.write (.number 1) (.integer 99))]

def abandoned : List Session.Call :=
  [.object Sample.first (.write (.number 1) (.integer 100)), .object Sample.first .detach,
    .object Sample.first .deletePersistent,
    .persist Sample.account [.text "A-2", .integer 20], .evictAll]

/-- An instance was changed after the transaction in which it was stored. In the next one it is
changed again, deleted and joined by another. -/
theorem transaction_isolated_pendingOutside :
    (pendingOutside.session.tx.active = false ∧
      (pendingOutside.call (.object Sample.first .detach)).after.store ≠ pendingOutside.store ∧
      ∀ other, other ≠ Sample.first →
        (pendingOutside.call (.object Sample.first .detach)).after.store.row? other =
          pendingOutside.store.row? other) ∧
    ((pendingOutside.call .begin).answer = .ok (.cycle 2) ∧
      (((pendingOutside.call .begin).after.run abandoned).call .rollback).answer =
        .ok (.cycle 2) ∧
      (((pendingOutside.call .begin).after.run abandoned).call .rollback).after.store =
        pendingOutside.store) ∧
    ((pendingOutside.call .begin).after.session.tx.active = true ∧
      (((pendingOutside.call .begin).after.call (.object Sample.first .detach)).after.store =
        (pendingOutside.call .begin).after.store)) := by
  have hreached : Reached ordinary pendingOutside := Sample.reached_run (by decide)
  have hchange : (pendingOutside.call (.object Sample.first .detach)).after.store ≠
      pendingOutside.store := by decide
  obtain ⟨_, houtside, hrun⟩ := transaction_isolated hreached
  refine ⟨⟨rfl, hchange, ?_⟩, ⟨rfl, hrun abandoned _ rfl ?_⟩, rfl, ?_⟩
  · obtain ⟨id, o, _, hc, hother⟩ := houtside rfl _ rfl hchange
    rcases hc with hc | ⟨hc, _⟩ <;> cases hc
    exact hother
  · simp [abandoned, Session.Call.isOrdinary, Instance.Call.isOrdinary, Session.Call.isWrite]
  · exact (transaction_isolated (hreached.step (e := .call .begin) rfl)).1 rfl _ rfl rfl

end Lifecycle
