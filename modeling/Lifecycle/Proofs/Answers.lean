import Lifecycle.Proofs.Backing

/-! What is answered in a session that has its store to itself. A state refuses a call, or a class
does not know a field; the store stands in the way of nothing. -/
namespace Lifecycle

namespace Instance
variable {tx : Transaction} {store : Store} {r : Request} {o : Instance} {f : Failure} {n : Nat}

/-- The state lets the request through. -/
def Grants (tx : Transaction) (o : Instance) (r : Request) : Prop :=
  ∃ m, transition tx o.schema.identity r o.state = .ok m

/-- Field `n` may be read. What is stored is read where reads are permitted, what was detached only
if it came along, and what cannot be found again only as long as it can. -/
structure Readable (tx : Transaction) (o : Instance) (n : Nat) : Prop where
  declared : n < o.schema.fieldCount
  alive : o.state.isDeleted = false
  stored : o.state.isPersistent = true → tx.permitsRead = true
  detached : o.state = .detachedClean ∨ o.state = .detachedDirty → o.cache.isLoaded n = true
  durable : o.state = .hollow → o.schema.identity = .nondurable →
    tx.active = true ∨ o.cache.isLoaded n = true

private theorem readable_iff :
    o.Readable tx n ↔ n < o.schema.fieldCount ∧ o.Grants tx (.readField (o.cache.isLoaded n)) := by
  rw [Grants, readField_granted_iff]
  exact ⟨fun ⟨hn, ha, hs, hd, hf⟩ => ⟨hn, ha, hs, hd, hf⟩,
    fun ⟨hn, ha, hs, hd, hf⟩ => ⟨hn, ha, hs, hd, hf⟩⟩

/-- A read, refresh, retrieve or detachment that is permitted. Only a hollow instance is not to be
retrieved where it may not be read. What is deleted is not detached, and neither is what has changes
that may be rolled back. -/
def Permits (tx : Transaction) (o : Instance) : Call → Prop
  | .read field => ∃ n, field.resolve o.schema = .ok n ∧ o.Readable tx n
  | .refresh => True
  | .retrieve _ | .retrieveWith _ => o.state = .hollow → tx.permitsRead = true
  | .detach => o.state.isDeleted = false ∧ (tx.active = true → o.hasPendingChanges = false)
  | _ => False

structure Sound (store : Store) (o : Instance) : Prop where
  sized : o.Sized
  complete : o.Complete
  backed : o.Backed store

/-- The failure is none of the store, and the call was not permitted. -/
def Refused (tx : Transaction) (o : Instance) (c : Call) (f : Failure) : Prop :=
  f.isStorage = false ∧ ¬ o.Permits tx c

private theorem withField_yields {α : Type} {field : FieldRef} {go : Nat → Outcome Instance α}
    {Q : Instance → Prop} {F : Failure → Prop}
    (hgo : ∀ n, field.resolve o.schema = .ok n → (go n).Yields Q F)
    (hname : ∀ f, field.resolve o.schema = .error f → f.isStorage = false → F f) :
    (o.withField field go).Yields Q F := by
  rw [withField]
  split
  · next n hn => exact hgo n hn
  · next f hf => exact hname f hf (FieldRef.resolve_error hf)

namespace Sound

private theorem load (hrow : (store.row? o.id).isSome = true) (selected : Nat → Slot → Bool) :
    ∃ o', o.load store selected = .ok o' := by
  cases hl : o.load store selected with
  | ok o' => exact ⟨o', rfl⟩
  | error f =>
    rw [(load_error hl).1] at hrow
    cases hrow

private theorem supply (h : o.Sound store) (hn : n < o.schema.fieldCount)
    (hd : o.state.isDeleted = false) : (o.supply store n).answer = .ok () := by
  rw [Instance.supply]
  split
  · next hc =>
    obtain ⟨hl, _, hp⟩ := hc
    rcases State.isStored_or_isSelfContained hp hd with hstored | hself
    · obtain ⟨o', ho'⟩ := load (h.backed.row hstored) fun m _ => decide (m = n)
      rw [ho']
      rfl
    · exact absurd ((h.complete.loaded hself).isLoaded (h.sized.slots.symm ▸ hn)) hl
  · rfl

private theorem apply_error (h : o.Sound store) (hr : ∀ use all, r ≠ .makeTransient use all)
    (hf : (o.apply tx store r).answer = .error f) : f.isStorage = false ∧ ¬ o.Grants tx r := by
  obtain ⟨refusal, ht, rfl⟩ := apply_refused hr h.backed.row hf
  refine ⟨refusal.failure_isStorage .., ?_⟩
  rintro ⟨m, hm⟩
  rw [hm] at ht
  cases ht

private theorem read {isLoaded : Bool} {F : Failure → Prop} (h : o.Sound store)
    (hn : n < o.schema.fieldCount)
    (hF : ∀ f, f.isStorage = false → ¬ o.Grants tx (.readField isLoaded) → F f) :
    (o.apply tx store (.readField isLoaded)).Yields
      (fun a => a.Sound store ∧ n < a.schema.fieldCount ∧ a.state.isDeleted = false) F := by
  refine Outcome.yields_of_answer ?_ ?_
  · intro s hs
    obtain ⟨m, hm, hnext⟩ := apply_next (by simp) hs
    have hsound : (o.apply tx store (.readField isLoaded)).after.Sound store :=
      ⟨Sized.keptByWork.applied h.sized, Complete.keptByWork.applied h.complete,
        h.backed.apply (by simp) (by simp) (by simp)⟩
    refine ⟨hsound, ?_, ?_⟩
    · rw [(apply_frame tx store _ o).2]
      exact hn
    · rw [hnext]
      exact next_of_readField m hm
  · intro f hf
    obtain ⟨hs, hg⟩ := h.apply_error (by simp) hf
    exact hF f hs hg

private theorem readField (h : o.Sound store) :
    (o.readField tx store n).Yields (fun _ => True) fun f =>
      f.isStorage = false ∧ ¬ o.Readable tx n := by
  rw [readable_iff, Instance.readField, ifDeclared]
  split
  · next hn =>
    refine (h.read hn fun f hs hg => ⟨hs, fun hb => hg hb.2⟩).andThen ?_
    rintro a _ ⟨ha, hna, hda⟩
    exact Outcome.Yields.andThen (Q := fun _ => True)
      (Outcome.yields_of_ok (ha.supply hna hda) trivial) fun _ _ _ => trivial
  · next hn => exact ⟨rfl, fun hb => hn hb.1⟩

private theorem writeField (h : o.Sound store) {v : Value} :
    (o.writeField tx store n v).Yields (fun _ => True) (·.isStorage = false) := by
  rw [Instance.writeField, ifDeclared]
  split
  · split
    · rfl
    · refine Outcome.Yields.andThen (Q := fun _ => True) ?_ fun _ _ _ => trivial
      exact Outcome.yields_of_after trivial fun f hf => (h.apply_error (by simp) hf).1
  · rfl

private theorem detach (h : o.Sound store) :
    (o.detach tx store).Yields (fun _ => True) (o.Refused tx .detach) := by
  rw [Instance.detach]
  split
  · next hp =>
    split
    · next ha =>
      refine ⟨rfl, ?_⟩
      rintro ⟨_, hn⟩
      rw [hn ha] at hp
      cases hp
    · obtain ⟨u, hu⟩ := h.backed.flush.exists_ok
      refine Outcome.Yields.andThen (Q := fun p => p.2.state = o.state)
        (Outcome.yields_of_ok hu (flush_state store o)) ?_
      rintro ⟨s, a⟩ _ hs
      simp only [hasPendingChanges, Bool.and_eq_true, Bool.not_eq_true'] at hp
      refine Outcome.yields_within.mpr ?_
      rw [apply_detach tx s (hs ▸ hp.1.1) (hs ▸ hp.2)]
      exact trivial
  · refine Outcome.yields_within.mpr (Outcome.yields_of_after trivial fun f hf => ?_)
    obtain ⟨hs, hg⟩ := h.apply_error (by simp) hf
    exact ⟨hs, fun hb => hg (detach_granted_iff.mpr hb.1)⟩

/-- A call that fails was not permitted, and it is not the store that fails it. -/
theorem call {c : Call} (hc : c.isOrdinary) (hf : c ≠ .flush) (ht : ∀ use, c ≠ .makeTransient use)
    (h : o.Sound store) : (o.call tx c store).Yields (fun _ => True) (o.Refused tx c) := by
  have plain (r : Request) (hr : ∀ use all, r ≠ .makeTransient use all)
      (hp : o.Permits tx c → o.Grants tx r) :
      (((o.apply tx store r).map Answer.state).within (store, ·)).Yields (fun _ => True)
        (o.Refused tx c) := by
    refine Outcome.yields_within.mpr (Outcome.yields_map.mpr ?_)
    refine Outcome.yields_of_after trivial fun f hf => ?_
    obtain ⟨hs, hg⟩ := h.apply_error hr hf
    exact ⟨hs, fun hb => hg (hp hb)⟩
  cases c with
  | apply r => cases hc
  | perform e => cases hc
  | flush => exact absurd rfl hf
  | makeTransient use => exact absurd rfl (ht use)
  | setPlan plan => exact trivial
  | detach => exact Outcome.yields_map.mpr h.detach
  | read field =>
    refine Outcome.yields_within.mpr (Outcome.yields_map.mpr (withField_yields ?_ ?_))
    · intro n hn
      refine Outcome.yields_of_after trivial fun f hf => ?_
      obtain ⟨hs, hg⟩ := h.readField.of_error hf
      refine ⟨hs, ?_⟩
      rintro ⟨n', hn', hb⟩
      rw [hn] at hn'
      cases hn'
      exact hg hb
    · intro f hn hs
      refine ⟨hs, ?_⟩
      rintro ⟨n', hn', _⟩
      rw [hn] at hn'
      cases hn'
  | write field v =>
    refine Outcome.yields_within.mpr (Outcome.yields_map.mpr (withField_yields ?_ ?_))
    · intro n _
      exact Outcome.yields_of_after trivial fun f hf => ⟨h.writeField.of_error hf, fun hb => hb⟩
    · exact fun f _ hs => ⟨hs, fun hb => hb⟩
  | refresh => exact plain _ (by simp) fun _ =>
    (refresh_granted ..).imp fun _ hm => hm.1
  | retrieve fetchPlanOnly | retrieveWith plan => exact plain _ (by simp) retrieve_granted_iff.mpr
  | _ => exact plain _ (by simp) False.elim

end Sound

end Instance

open Instance

namespace Session
variable {w : Store × Session} {f : Failure}

private theorem persist_error {id : ObjectId} {schema : Schema} {values : List Value}
    (h : (persist id schema values w).answer = .error f) : f.isStorage = false := by
  rw [persist] at h
  cases hc : Instance.create id schema values with
  | error f' =>
    rw [hc] at h
    cases h
    simp only [Instance.create] at hc
    split at hc <;> cases hc
    rfl
  | ok o =>
    rw [hc] at h
    simp only at h
    split at h
    · next f' hf =>
      cases h
      rw [create_eq_ok hc] at hf
      obtain ⟨refusal, _, rfl⟩ := apply_refused (by simp) (fun hs => by cases hs) hf
      exact refusal.failure_isStorage ..
    · cases h

end Session

private theorem Reached.sound {w : World} (h : Reached wellBehaved w) {o : Instance}
    (ho : o ∈ w.session.objects) : o.Sound w.store :=
  ⟨h.of_wellBehaved.sized ho,
    h.of_wellBehaved.complete ho, h.backed.each o ho⟩

namespace World
variable {w : World} {f : Failure}

private theorem commit_ok (h : Reached wellBehaved w) (ha : w.session.tx.active = true) :
    (w.call .commit).answer = .ok (.cycle w.session.tx.current) := by
  have hboth : Session.Everywhere (fun tx s o => o.EnlistedExactly tx ∧ o.Backed s) w.pair :=
    h.backed.mono fun o ho hb => ⟨h.of_wellBehaved.enlistedExactly.each o ho, hb⟩
  obtain ⟨n, hn⟩ := (Session.commit_backed (w := w.pair) ha hboth).exists_ok
  change (Session.commit w.pair).answer.map Answer.cycle = _
  rw [hn, Session.commit_answer (w := w.pair) ha hn]
  rfl

private theorem onObject_yields (h : Reached wellBehaved w) {id : ObjectId} {c : Instance.Call}
    {o : Instance} (ho : w.session.object id = .ok o) (hc : wellBehaved w (.call (.object id c))) :
    (w.call (.object id c)).Yields (fun _ => True) (o.Refused w.session.tx c) := by
  obtain ⟨hord, hflush, htransient⟩ := hc
  have hs := h.sound (Session.object_eq_ok ho).1
  change (w.onObject id c).Yields _ _
  rw [onObject, ho]
  exact Outcome.yields_within.mpr (hs.call hord hflush htransient)

private theorem call_error (h : Reached wellBehaved w) {c : Session.Call}
    (hc : wellBehaved w (.call c)) (hfind : ∀ schema id, c ≠ .find schema id)
    (hmanaged : ∀ id c', c = .object id c' → ∃ o, w.session.object id = .ok o)
    (hf : (w.call c).answer = .error f) : f.isStorage = false := by
  -- The store fails nothing but the search for a row that is not there.
  have he := h.of_wellBehaved.enlistedExactly
  cases c with
  | begin =>
    rw [Session.begin_error (w := w.pair) he.sorted (Outcome.error_of_map hf)]
    rfl
  | commit =>
    cases ha : w.session.tx.active with
    | true =>
      rw [commit_ok h ha] at hf
      cases hf
    | false =>
      have hn := Session.commit_of_inactive (w := w.pair) ha
      have hf' : (Session.commit w.pair).answer = .error f := Outcome.error_of_map hf
      rw [hn] at hf'
      cases hf'
      rfl
  | rollback =>
    have hf' : (Session.rollback w.pair).answer = .error f := Outcome.error_of_map hf
    cases ha : w.session.tx.active with
    | true =>
      rw [Session.rollback_ok (w := w.pair) ha he] at hf'
      cases hf'
    | false =>
      rw [Session.rollback_of_inactive (w := w.pair) ha] at hf'
      cases hf'
      rfl
  | persist schema values =>
    simp only [call] at hf
    split at hf
    · cases hf
    · next hp =>
      cases hf
      exact Session.persist_error (congrArg (·.answer) hp)
  | find schema id => exact absurd rfl (hfind schema id)
  | evictAll =>
    have hf' : (Session.evictAll w.pair).answer = .error f := Outcome.error_of_map hf
    rw [Session.evictAll_ok he.sorted] at hf'
    cases hf'
  | object id c =>
    obtain ⟨o, ho⟩ := hmanaged id c rfl
    exact ((onObject_yields h ho hc).of_error hf).1
  | beginTransaction | finishTransaction => cases hc

end World

/-- In a session that has its store to itself nothing fails for a row that is missing or one that is
in the way; only a search may come back with nothing. So a commit within a transaction succeeds, and
every read, refresh, retrieve or detachment that is permitted comes to its end. -/
theorem storage_never_fails {w : World} (h : Reached wellBehaved w) :
    (∀ c : Session.Call, wellBehaved w (.call c) → (∀ schema id, c ≠ .find schema id) →
      (∀ id c', c = .object id c' → ∃ o, w.session.object id = .ok o) →
      ∀ id, (w.call c).answer ≠ .error (.objectNotFound id) ∧
        (w.call c).answer ≠ .error (.duplicateObject id)) ∧
    (w.session.tx.active = true →
      (w.call .commit).answer = .ok (.cycle w.session.tx.current)) ∧
    ∀ (id : ObjectId) (o : Instance) (c : Instance.Call), w.session.object id = .ok o →
      o.Permits w.session.tx c → ∃ a, (w.call (.object id c)).answer = .ok a := by
  refine ⟨?_, World.commit_ok h, ?_⟩
  · intro c hc hfind hmanaged id
    constructor
    all_goals
      intro hf
      cases World.call_error h hc hfind hmanaged hf
  · intro id o c ho hp
    have hc : wellBehaved w (.call (.object id c)) := by
      cases c <;> first | exact hp.elim | exact ⟨rfl, by simp, by simp⟩
    cases ha : (w.call (.object id c)).answer with
    | ok a => exact ⟨a, rfl⟩
    | error f => exact absurd hp ((World.onObject_yields h ho hc).of_error ha).2

def unsettled : World :=
  Sample.run .standard
    [.begin, .persist Sample.account [.text "A-1", .integer 10],
      .persist Sample.account [.text "A-2", .integer 20], .commit, .begin,
      .object Sample.first (.write (.number 1) (.integer 11)),
      .object Sample.second .deletePersistent,
      .persist Sample.account [.text "A-3", .integer 30]]

private theorem unsettled_reached : Reached wellBehaved unsettled := by
  have hstart : Reached wellBehaved (.fresh .empty .counting .standard) := .fresh ..
  have hstored := (((hstart.step (e := .call .begin) rfl).step
    (e := .call (.persist Sample.account [.text "A-1", .integer 10])) rfl).step
    (e := .call (.persist Sample.account [.text "A-2", .integer 20])) rfl).step
    (e := .call .commit) rfl
  exact (((hstored.step (e := .call .begin) rfl).step
    (e := .call (.object Sample.first (.write (.number 1) (.integer 11))))
    ⟨rfl, by simp, by simp⟩).step
    (e := .call (.object Sample.second .deletePersistent)) ⟨rfl, by simp, by simp⟩).step
    (e := .call (.persist Sample.account [.text "A-3", .integer 30])) rfl

/-- In the transaction one stored instance was changed, another one was deleted, and a third is new.
-/
theorem storage_never_fails_unsettled :
    (unsettled.call (.object Sample.second (.read (.number 1)))).answer ≠
        .error (.objectNotFound Sample.second) ∧
      (unsettled.session.tx.active = true ∧ (unsettled.call .commit).answer = .ok (.cycle 2)) ∧
      ∃ a, (unsettled.call (.object Sample.first (.read (.name "balance")))).answer = .ok a := by
  obtain ⟨hcalls, hcommit, hpermitted⟩ := storage_never_fails unsettled_reached
  refine ⟨?_, ⟨rfl, hcommit rfl⟩, ?_⟩
  · refine (hcalls (.object Sample.second (.read (.number 1))) ⟨rfl, by simp, by simp⟩ (by simp)
      ?_ Sample.second).1
    rintro id c ⟨⟩
    exact ⟨_, rfl⟩
  · refine hpermitted Sample.first _ (.read (.name "balance")) rfl ⟨1, rfl, ?_⟩
    exact ⟨by decide, rfl, fun _ => rfl, fun _ => rfl, fun _ _ => .inl rfl⟩

end Lifecycle
