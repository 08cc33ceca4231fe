import Mathlib.Data.List.Nodup
import Lifecycle.Proofs.Enlistment
import Lifecycle.Proofs.Origins

/-! One instance followed through the calls of its session. As long as no transaction is ended, an
event calls the instance, tells it of a transaction that begins, evicts it, or passes it by. -/
namespace Lifecycle

namespace Session
variable {w : Store × Session} {o : Instance}

private theorem object_of_mem {session : Session} (hs : ById.Sorted Instance.id session.objects)
    (ho : o ∈ session.objects) : session.object o.id = .ok o := by
  obtain ⟨a, ha⟩ := exists_object (List.mem_map_of_mem ho : o.id ∈ session.ids)
  obtain ⟨hmem, hid⟩ := object_eq_ok ha
  obtain rfl : a = o := List.inj_on_of_nodup_map hs.nodup hmem ho hid
  exact ha

private theorem object_manage_of_ne (session : Session) {id : ObjectId} (h : o.id ≠ id) :
    (session.manage o).object id = session.object id := by
  rw [object, object, object?, object?, manage, ById.find?_insert, if_neg h]

private theorem begin_mem {tx' : Transaction} (hs : ById.Sorted Instance.id w.2.objects)
    (hb : w.2.tx.begin = .ok tx') (ho : o ∈ w.2.objects) :
    ∃ s, (o.apply tx' s .begin).after ∈ (begin w).after.2.objects := by
  obtain ⟨n, hn⟩ := begin_ok hs (Transaction.begin_eq_ok hb).1
  simp only [begin, hb] at hn ⊢
  obtain ⟨_, hok, _⟩ := Outcome.ok_of_map hn
  obtain ⟨s, _, hmem⟩ := sweepWhere_mem applying_own hs hok ho rfl
  exact ⟨s, hmem⟩

private theorem evictAll_mem (hs : ById.Sorted Instance.id w.2.objects) (ho : o ∈ w.2.objects) :
    o ∈ (evictAll w).after.2.objects ∨
      ∃ s, (o.apply w.2.tx s .evict).after ∈ (evictAll w).after.2.objects := by
  have hok := evictAll_ok hs
  cases hp : o.state.isPersistent && !o.state.isDirty with
  | true =>
    obtain ⟨s, _, hmem⟩ := sweepWhere_mem applying_own hs hok ho hp
    exact .inr ⟨s, hmem⟩
  | false => exact .inl (sweepWhere_mem_skipped applying_own hs hok ho hp)

end Session

/-- What one event may make of an instance and its transaction, if only some calls are made. -/
inductive Instance.Turn (allowed : Instance.Call → Prop) (tx : Transaction) (o : Instance) :
    Transaction → Instance → Prop
  | passed : Turn allowed tx o tx o
  | told {tx' : Transaction} (store : Store) (h : tx.begin = .ok tx') :
    Turn allowed tx o tx' (o.apply tx' store .begin).after
  | evicted (store : Store) : Turn allowed tx o tx (o.apply tx store .evict).after
  | called {c : Instance.Call} (store : Store) (hc : c.isOrdinary = true) (ha : allowed c) :
    Turn allowed tx o tx (o.call tx c store).after.2

namespace World
variable {w : World} {id : ObjectId} {allowed : Instance.Call → Prop} {e : Event} {o : Instance}
  {events : List Event} {P : World → Event → Prop}

def Throughout (P : World → Event → Prop) (w : World) : List Event → Prop
  | [] => True
  | e :: rest => P w e ∧ (w.next e).Throughout P rest

/-- The event is one of an application that ends no transaction. It puts nobody else in the place of
the instance with the identity, and makes of it only calls that are allowed. -/
def Respects (id : ObjectId) (allowed : Instance.Call → Prop) (w : World) : Event → Prop
  | .foreign _ | .call .begin | .call (.find _ _) | .call .evictAll => True
  | .call (.persist _ _) => w.ids.peek ≠ id
  | .call (.object k c) => c.isOrdinary = true ∧ (k = id → allowed c)
  | .call .commit | .call .rollback | .call .beginTransaction | .call .finishTransaction => False

/-- What an application does within the limits is ordinary. -/
theorem Respects.ordinary (h : w.Respects id allowed e) : e.isOrdinary = true := by
  cases e with
  | foreign store => rfl
  | call c =>
    cases c with
    | object k c => exact h.1
    | beginTransaction | finishTransaction => exact h.elim
    | _ => rfl

/-- What goes on within a transaction does not end it. -/
theorem Respects.tx (h : w.Respects id allowed e) (ha : w.session.tx.active = true) :
    (w.next e).session.tx = w.session.tx := by
  cases e with
  | foreign store => rfl
  | call c =>
    refine call_active h.ordinary ?_ ?_ ha
    · rintro rfl
      exact h.elim
    · rintro rfl
      exact h.elim

/-- Whoever is managed is found without a change. -/
theorem call_find_of_managed {schema : Schema} (h : w.session.object id = .ok o) :
    (w.call (.find schema id)).after = w := by
  simp only [Session.object] at h
  split at h
  · next a ha => simp only [call, Session.find, pair, ha]; rfl
  · cases h

/-- An instance that is called is the one that is found afterwards. -/
theorem object_of_call {c : Instance.Call} (hc : c.isOrdinary) (ho : w.session.object id = .ok o) :
    (w.call (.object id c)).answer = (o.call w.session.tx c w.store).answer ∧
      (w.call (.object id c)).after.session.tx = w.session.tx ∧
      (w.call (.object id c)).after.session.object id =
        .ok (o.call w.session.tx c w.store).after.2 := by
  have hid := (Instance.call_own w.session.tx w.store o hc).id
  rw [call, onObject, ho]
  refine ⟨rfl, rfl, ?_⟩
  rw [← (Session.object_eq_ok ho).2, ← hid]
  exact Session.object_manage w.session _

/-- A write that is answered is one of a field that the class has. -/
theorem write_of_answer {field : FieldRef} {v : Value} {a : Answer}
    (ho : w.session.object id = .ok o)
    (hok : (w.call (.object id (.write field v))).answer = .ok a) :
    ∃ n o', field.resolve o.schema = .ok n ∧ o.writeField w.session.tx w.store n v = .done o' () ∧
      (w.call (.object id (.write field v))).after.session.tx = w.session.tx ∧
      (w.call (.object id (.write field v))).after.session.object id = .ok o' := by
  obtain ⟨hanswer, htx, hafter⟩ := object_of_call (c := .write field v) rfl ho
  have hcall : o.call w.session.tx (.write field v) w.store =
      ((o.withField field fun n => o.writeField w.session.tx w.store n v).map
        fun _ => Answer.done).within (w.store, ·) := rfl
  rw [hcall] at hanswer hafter
  rw [hafter, htx]
  obtain ⟨_, hok, _⟩ := Outcome.ok_of_map (hanswer.symm.trans hok)
  rw [Instance.withField] at hok ⊢
  cases hn : field.resolve o.schema with
  | error f =>
    rw [hn] at hok
    cases hok
  | ok n =>
    rw [hn] at hok
    refine ⟨n, _, rfl, ?_, rfl, rfl⟩
    simp only at hok ⊢
    generalize o.writeField w.session.tx w.store n v = r at hok
    obtain ⟨o', answer⟩ := r
    cases hok
    rfl

private theorem persist_object {schema : Schema} {values : List Value} (h : w.ids.peek ≠ id) :
    (w.call (.persist schema values)).after.session.object id = w.session.object id := by
  change (w.call (.persist schema values)).after.pair.2.object id = _
  rw [call_persist, Session.persist]
  cases hc : Instance.create w.ids.peek schema values with
  | error f => rfl
  | ok a =>
    have hid : a.id = w.ids.peek := by rw [Instance.create_eq_ok hc]
    simp only
    split
    · rfl
    · refine Session.object_manage_of_ne _ ?_
      rw [(Instance.apply_frame ..).1, hid]
      exact h

private theorem find_object {schema : Schema} {k : ObjectId} (ho : w.session.object id = .ok o) :
    (w.call (.find schema k)).after.session.object id = .ok o := by
  by_cases hk : k = id
  · rw [hk, call_find_of_managed ho]
    exact ho
  · change (Session.find schema k w.pair).after.2.object id = _
    rw [Session.find]
    split
    · exact ho
    · split
      · next a ha =>
        obtain ⟨_, _, rfl⟩ := Instance.hollow_eq_ok ha
        exact (Session.object_manage_of_ne _ hk).trans ho
      · exact ho

private theorem begin_turn (h : Reached ordinary w) (ho : w.session.object id = .ok o) :
    ∃ o', (w.call .begin).after.session.object id = .ok o' ∧
      o.Turn allowed w.session.tx (w.call .begin).after.session.tx o' := by
  obtain ⟨hmem, rfl⟩ := Session.object_eq_ok ho
  have hsorted := (h.step (e := .call .begin) rfl).enlistedExactly.sorted
  cases hb : w.session.tx.begin with
  | error f =>
    have hw : (w.call .begin).after = w := by simp only [call, Session.begin, pair, hb]; rfl
    rw [hw]
    exact ⟨o, ho, .passed⟩
  | ok tx' =>
    obtain ⟨s, hs⟩ := Session.begin_mem (w := w.pair) h.enlistedExactly.sorted hb hmem
    have htx : (w.call .begin).after.session.tx = tx' := by
      simp only [call, Session.begin, pair, hb]
      rfl
    rw [htx, ← (Instance.apply_frame tx' s .begin o).1]
    exact ⟨_, Session.object_of_mem hsorted hs, .told s hb⟩

private theorem evictAll_turn (h : Reached ordinary w) (ho : w.session.object id = .ok o) :
    ∃ o', (w.call .evictAll).after.session.object id = .ok o' ∧
      o.Turn allowed w.session.tx (w.call .evictAll).after.session.tx o' := by
  obtain ⟨hmem, rfl⟩ := Session.object_eq_ok ho
  have hsorted := (h.step (e := .call .evictAll) rfl).enlistedExactly.sorted
  rcases Session.evictAll_mem (w := w.pair) h.enlistedExactly.sorted hmem with hm | ⟨s, hm⟩
  · exact ⟨o, Session.object_of_mem hsorted hm, .passed⟩
  · rw [← (Instance.apply_frame w.session.tx s .evict o).1]
    exact ⟨_, Session.object_of_mem hsorted hm, .evicted s⟩

/-- A call of another instance passes this one by. -/
theorem object_of_other {k : ObjectId} {c : Instance.Call} (hc : c.isOrdinary) (hk : k ≠ id) :
    (w.call (.object k c)).after.session.tx = w.session.tx ∧
      (w.call (.object k c)).after.session.object id = w.session.object id := by
  change (w.onObject k c).after.session.tx = _ ∧ (w.onObject k c).after.session.object id = _
  rw [onObject]
  cases ha : w.session.object k with
  | error f => exact ⟨rfl, rfl⟩
  | ok a =>
    refine ⟨rfl, Session.object_manage_of_ne w.session ?_⟩
    rw [(Instance.call_own w.session.tx w.store a hc).id, (Session.object_eq_ok ha).2]
    exact hk

private theorem object_turn {k : ObjectId} {c : Instance.Call} (hc : c.isOrdinary)
    (hallowed : k = id → allowed c) (ho : w.session.object id = .ok o) :
    ∃ o', (w.call (.object k c)).after.session.object id = .ok o' ∧
      o.Turn allowed w.session.tx (w.call (.object k c)).after.session.tx o' := by
  by_cases hk : k = id
  · subst hk
    obtain ⟨_, htx, hafter⟩ := object_of_call hc ho
    rw [htx]
    exact ⟨_, hafter, .called w.store hc (hallowed rfl)⟩
  · obtain ⟨htx, hafter⟩ := object_of_other hc hk
    rw [htx, hafter]
    exact ⟨o, ho, .passed⟩

/-- What becomes of a managed instance in one event that respects it. -/
theorem next_turn (h : Reached ordinary w) (ho : w.session.object id = .ok o)
    (he : w.Respects id allowed e) :
    ∃ o', (w.next e).session.object id = .ok o' ∧
      o.Turn allowed w.session.tx (w.next e).session.tx o' := by
  cases e with
  | foreign store => exact ⟨o, ho, .passed⟩
  | call c =>
    cases c with
    | begin => exact begin_turn h ho
    | evictAll => exact evictAll_turn h ho
    | persist schema values =>
      have htx : (w.call (.persist schema values)).after.session.tx = w.session.tx := by
        change (w.call (.persist schema values)).after.pair.2.tx = _
        rw [call_persist, Session.persist_tx]
        rfl
      rw [next, htx]
      exact ⟨o, (persist_object he).trans ho, .passed⟩
    | find schema k =>
      have htx : (w.call (.find schema k)).after.session.tx = w.session.tx := Session.find_tx
      rw [next, htx]
      exact ⟨o, find_object ho, .passed⟩
    | object k c => exact object_turn he.1 he.2 ho
    | commit | rollback | beginTransaction | finishTransaction => exact he.elim

/-- What every step of a commit and of a rollback keeps survives the end of a transaction, also
where it fails. -/
theorem end_keeps {Q : Instance → Prop} (h : Session.Everywhere (fun _ _ => Q) w.pair)
    {c : Session.Call} (hc : c = .commit ∨ c = .rollback)
    (flushed : ∀ store a, Q a → Q (a.flush store).after.2)
    (applied : ∀ store a r, r = .retrieve true ∨ r = .detach ∨ r = .commit ∨ r = .rollback →
      Q a → Q (a.apply w.session.tx store r).after) :
    Session.Everywhere (fun _ _ => Q) (w.call c).after.pair := by
  have hQ : Framed fun _ => Q := fun _ _ _ _ ha => ha
  rcases hc with rfl | rfl
  · change Session.Everywhere _ (Session.commit w.pair).after
    cases hactive : w.session.tx.active with
    | false =>
      rw [Session.commit_of_inactive (w := w.pair) hactive]
      exact h
    | true =>
      exact Session.commit_keeps hQ hactive h flushed
        fun s a r hr => applied s a r (hr.imp_right (Or.imp_right .inl))
  · change Session.Everywhere _ (Session.rollback w.pair).after
    cases hactive : w.session.tx.active with
    | false =>
      rw [Session.rollback_of_inactive (w := w.pair) hactive]
      exact h
    | true =>
      exact Session.rollback_keeps hQ hactive h
        fun s a => applied s a .rollback (.inr (.inr (.inr rfl)))

end World

namespace Reached
variable {w : World} {id : ObjectId} {allowed : Instance.Call → Prop} {o : Instance}
  {events : List Event}

/-- What every turn keeps, a run that respects the instance keeps. -/
theorem follow {P : Transaction → Instance → Prop} (h : Reached ordinary w)
    (hP : ∀ {tx o tx' o'}, o.Turn allowed tx tx' o' → P tx o → P tx' o')
    (ho : w.session.object id = .ok o) (hi : P w.session.tx o)
    (hrun : w.Throughout (World.Respects id allowed) events) :
    Reached ordinary (w.after events) ∧
      ∃ o', (w.after events).session.object id = .ok o' ∧ P (w.after events).session.tx o' := by
  induction events generalizing w o with
  | nil => exact ⟨h, o, ho, hi⟩
  | cons e rest ih =>
    obtain ⟨o', ho', hturn⟩ := World.next_turn h ho hrun.1
    exact ih (h.step hrun.1.ordinary) ho' (hP hturn hi) hrun.2

/-- What a rollback makes of an instance that takes part. -/
theorem rollback_object (h : Reached ordinary w) (ha : w.session.tx.active)
    (ho : w.session.object id = .ok o) (he : o.enlisted) :
    ∃ store, (w.call .rollback).after.session.object id =
      .ok (o.apply w.session.tx store .rollback).after := by
  obtain ⟨hmem, rfl⟩ := Session.object_eq_ok ho
  obtain ⟨store, hs⟩ := Session.rollback_mem (w := w.pair) ha h.enlistedExactly hmem he
  have hsorted := (h.step (e := .call .rollback) rfl).enlistedExactly.sorted
  refine ⟨store, ?_⟩
  rw [← (Instance.apply_frame w.session.tx store .rollback o).1]
  exact Session.object_of_mem hsorted hs

/-- What every step of a commit and of a rollback keeps of an instance is kept by the end of a
transaction, whether or not it succeeds. -/
theorem end_object {Q : Instance → Prop} (h : Reached ordinary w)
    (ho : w.session.object id = .ok o) (hq : Q o) {c : Session.Call}
    (hc : c = .commit ∨ c = .rollback)
    (flushed : ∀ store a, Q a → Q (a.flush store).after.2)
    (applied : ∀ store a r, r = .retrieve true ∨ r = .detach ∨ r = .commit ∨ r = .rollback →
      Q a → Q (a.apply w.session.tx store r).after) :
    ∃ o', (w.call c).after.session.object id = .ok o' ∧ Q o' := by
  have hfirst : Session.Everywhere (fun _ _ a => a.id = id → Q a) w.pair := by
    refine h.enlistedExactly.mono fun a ha _ hid => ?_
    have hsame := Session.object_of_mem h.enlistedExactly.sorted ha
    rw [hid] at hsame
    exact Except.ok.inj (ho.symm.trans hsame) ▸ hq
  have hlast := World.end_keeps hfirst hc
    (fun store a ha hid => flushed store a (ha ((Instance.flush_own store a).id.symm.trans hid)))
    fun store a r hr ha hid =>
      applied store a r hr (ha ((Instance.apply_frame ..).1.symm.trans hid))
  have hids : (w.call c).after.session.ids = w.session.ids := by
    rcases hc with rfl | rfl
    · exact (Session.commit_confined w.pair).ids
    · exact (Session.rollback_confined w.pair).ids
  obtain ⟨hmem, hid⟩ := Session.object_eq_ok ho
  obtain ⟨o', ho'⟩ : ∃ o', (w.call c).after.session.object id = .ok o' := by
    refine Session.exists_object ?_
    rw [hids, ← hid]
    exact List.mem_map_of_mem hmem
  obtain ⟨hmem', hid'⟩ := Session.object_eq_ok ho'
  exact ⟨o', ho', hlast.each o' hmem' hid'⟩

end Reached

end Lifecycle
