import Lifecycle.Proofs.Cached
import Lifecycle.Proofs.Following
import Lifecycle.Proofs.Isolation

/-! What rollback gives back. The first change of an instance in a transaction takes a snapshot, and
nothing that may be asked of the instance until the transaction ends takes another or drops it. -/
namespace Lifecycle

namespace Instance
variable {tx tx' : Transaction} {store : Store} {r : Request} {o o' : Instance} {c : Call}
  {allowed : Call → Prop} {target : State} {saved : Option (List Slot)} {slots : List Slot}

/-- The instance waits for the end of its transaction. Rollback leads it to `target`, and `saved` is
the snapshot that it holds. -/
structure Undoable (target : State) (saved : Option (List Slot)) (o : Instance) : Prop where
  state : o.state.isUncommitted = true
  leads : o.state.afterRollback true = target
  saved : o.cache.saved = saved

/-- The call may settle the changes of an instance that rollback would lead to `target`. Detaching
does not, as it is refused. -/
def Call.settles (tx : Transaction) (target : State) : Call → Bool
  | .makePersistent => target = .transientClean
  | .refresh => target = .nontransactional
  | .makeTransient _ => tx.options.detachAllOnCommit && target ≠ .transientClean
  | _ => false

namespace Undoable

private theorem of_load {n : Nat} (h : o.Undoable target saved)
    (hl : o.load store (fun m _ => m = n) = .ok o') : o'.Undoable target saved := by
  rcases load_cases hl with ⟨_, rfl⟩ | ⟨_, _, rfl⟩
  · exact h
  · exact ⟨h.state, h.leads, h.saved⟩

private theorem apply (h : o.Undoable target saved) (hr : r.settles target = false) :
    (o.apply tx store r).after.Undoable target saved := by
  rw [← h.leads] at hr
  obtain ⟨hstate, hsaved⟩ := apply_along tx store
    (S := fun s => s.isUncommitted = true ∧ s.afterRollback true = o.state.afterRollback true)
    (P := fun a => a.cache.saved = saved) (next_of_uncommitted h.state hr)
    (fun _ _ _ he hp ha => (perform_saved he hp).trans ha) (fun _ _ ha => ha) ⟨h.state, rfl⟩ h.saved
  exact ⟨hstate.1, hstate.2.trans h.leads, hsaved⟩

private theorem writeField {n : Nat} {v : Value} (h : o.Undoable target saved) :
    (o.writeField tx store n v).after.Undoable target saved :=
  writeField_kept (P := Undoable target saved) h (h.apply rfl) fun _ _ _ _ ha =>
    ⟨ha.state, ha.leads, ha.saved⟩

private theorem readField {n : Nat} (h : o.Undoable target saved) :
    (o.readField tx store n).after.Undoable target saved :=
  readField_kept (P := Undoable target saved) (T := Undoable target saved) h
    (Outcome.meets_self.mpr (h.apply rfl)) (fun _ ha => ha) fun _ hl ha => ha.of_load hl

private theorem transientDirty (h : o.Undoable .transientClean saved) :
    o.state = .transientDirty := by
  have hs := h.state
  have hleads := h.leads
  revert hs hleads
  cases o.state <;> simp [State.isUncommitted, State.afterRollback]

private theorem detach (h : o.Undoable target saved)
    (ha : tx.active = true ∨ target = .transientClean) :
    (o.detach tx store).after.2.Undoable target saved := by
  cases hp : o.hasPendingChanges with
  | true =>
    have hactive : tx.active = true := by
      refine ha.resolve_right ?_
      rintro rfl
      rw [hasPendingChanges, h.transientDirty] at hp
      cases hp
    rw [Instance.detach, if_pos hp, if_pos hactive]
    exact h
  | false =>
    have hidle : (o.apply tx store .detach).after = o := by
      have hs := h.state
      obtain ⟨id, schema, plan, cache, state, enlisted, connected⟩ := o
      cases state <;> simp only [State.isUncommitted, Bool.false_eq_true] at hs <;>
        first | rfl | cases hp
    rw [Instance.detach, if_neg (by simp [hp])]
    change (o.apply tx store .detach).after.Undoable target saved
    rw [hidle]
    exact h

private theorem call (h : o.Undoable target saved) (hc : c.isOrdinary)
    (ha : tx.active = true ∨ target = .transientClean) (hs : c.settles tx target = false) :
    (o.call tx c store).after.2.Undoable target saved := by
  cases c with
  | apply r => cases hc
  | perform e => cases hc
  | read field => exact withField_kept (P := Undoable target saved) h fun _ _ => h.readField
  | write field v => exact withField_kept (P := Undoable target saved) h fun _ _ => h.writeField
  | flush =>
    exact flush_kept (P := fun _ a => a.Undoable target saved) h fun _ _ _ =>
      ⟨h.state, h.leads, h.saved⟩
  | detach => exact h.detach ha
  | setPlan plan => exact ⟨h.state, h.leads, h.saved⟩
  | _ => exact h.apply hs

private theorem turn (h : o.Undoable target saved)
    (ha : tx.active = true ∨ target = .transientClean)
    (hallowed : ∀ c, allowed c → c.settles tx target = false) (ht : o.Turn allowed tx tx' o') :
    o'.Undoable target saved := by
  cases ht with
  | passed => exact h
  | told store _ => exact h.apply rfl
  | evicted store => exact h.apply rfl
  | called store hc hcall => exact h.call hc ha (hallowed _ hcall)

private theorem of_write {n : Nat} {v : Value} (ha : tx.active)
    (hs : o.state = .transientClean ∨ tx.options.restoreValues = true ∧
      (o.state = .hollow ∨ o.state = .persistentClean ∨ o.state = .nontransactional))
    (h : o.writeField tx store n v = .done o' ()) :
    o'.Undoable (if o.state = .transientClean then .transientClean else .nontransactional)
      (some o.cache.slots) := by
  obtain ⟨_, a, _, happ, rfl⟩ := writeField_eq_done h
  obtain ⟨t, hm, hne, hstate, hleads⟩ := writeField_saves o.schema.identity ha hs
  have ht : t ≠ .transient := by
    rintro rfl
    cases hstate
  rw [apply_of_enter hm rfl hne] at happ
  obtain rfl : Instance.enter t { o with cache := o.cache.save } = a := congrArg (·.after) happ
  refine ⟨?_, ?_, ?_⟩
  · exact (congrArg State.isUncommitted (enter_state t)).trans hstate
  · exact (congrArg (State.afterRollback true) (enter_state t)).trans hleads
  · exact congrArg Cache.saved (enter_cache ht)

private theorem apply_makePersistent (tx : Transaction) (store : Store)
    (hs : o.state = .transient ∨ o.state = .transientClean ∨ o.state = .transientDirty) :
    (o.apply tx store .makePersistent).after = Instance.enter .persistentNew
      (if tx.options.restoreValues ∧ ¬ o.state.isDirty then { o with cache := o.cache.save }
        else o) := by
  -- A snapshot is taken of whoever is made persistent, unless an older one is held.
  have hm : transition tx o.schema.identity .makePersistent o.state =
      Move.enter (if tx.options.restoreValues ∧ ¬ o.state.isDirty then [.saveFields] else [])
        o.state .persistentNew := by
    rcases hs with hs | hs | hs <;> rw [hs] <;> rfl
  have hne : State.persistentNew ≠ o.state := by
    rcases hs with hs | hs | hs <;> rw [hs] <;> decide
  split
  · next hsave =>
    rw [if_pos hsave] at hm
    exact congrArg (·.after) (apply_of_enter hm rfl hne)
  · next hsave =>
    rw [if_neg hsave] at hm
    exact congrArg (·.after) (apply_of_enter hm rfl hne)

private theorem of_makePersistent (tx : Transaction) (store : Store)
    (hs : o.state = .transient ∨ o.state = .transientClean ∨ o.state = .transientDirty) :
    (o.apply tx store .makePersistent).after.Undoable .transient
      (if tx.options.restoreValues ∧ ¬ o.state.isDirty then some o.cache.slots
        else o.cache.saved) := by
  rw [apply_makePersistent tx store hs]
  refine ⟨congrArg State.isUncommitted (enter_state _),
    congrArg (State.afterRollback true) (enter_state _), ?_⟩
  rw [enter_cache (by simp)]
  split <;> rfl

private theorem target_ne (h : o.Undoable target saved) : target ≠ o.state := by
  rw [← h.leads]
  have hs := h.state
  revert hs
  cases o.state <;> simp [State.isUncommitted, State.afterRollback]

private theorem rollback (h : o.Undoable target (some slots))
    (hr : tx.options.restoreValues = true ∨ target = .transientClean) (store : Store) :
    (o.apply tx store .rollback).after =
      Instance.enter target { o with cache := ⟨slots, none⟩ } := by
  have hdirty : target = .transientClean → o.state = .transientDirty := by
    rintro rfl
    exact h.transientDirty
  have hm := rollback_of_uncommitted tx o.schema.identity h.state (hr.imp_right hdirty)
  rw [h.leads] at hm
  have hrestore : o.cache.restore = ⟨slots, none⟩ := by rw [Cache.restore, h.saved]; rfl
  rw [apply_of_enter hm rfl h.target_ne, ← hrestore]
  rfl

private theorem rollback_keeps (h : o.Undoable .transient saved)
    (hr : tx.options.restoreValues = false) (store : Store) :
    (o.apply tx store .rollback).after =
      Instance.enter .transient { o with cache := o.cache.clearSaved } := by
  have hm : transition tx o.schema.identity .rollback o.state =
      Move.enter [.clearSavedFields] o.state .transient := by
    have hs := h.state
    have hleads := h.leads
    revert hs hleads
    cases o.state <;> simp [State.isUncommitted, State.afterRollback, transition,
      Transition.rollback, hr]
  rw [apply_of_enter hm rfl h.target_ne]
  rfl

end Undoable

structure Released (values : List Value) (o : Instance) : Prop where
  state : o.state = .transient
  disconnected : o.connected = false
  full : o.cache.IsFull
  values : o.cache.values = values

private theorem released_enter (h : o.state ≠ .transient) :
    (o.enter .transient).Released o.cache.values := by
  refine ⟨enter_state _, ?_, ?_, ?_⟩
  · rw [enter, if_neg h.symm]
    exact Bool.and_false _
  · rw [enter_transient h]
    exact Cache.isFull_markAllLoaded _
  · rw [enter_transient h, Cache.values, Cache.markAllLoaded, List.map_map]
    rfl

end Instance

open Instance

namespace World
variable {w : World} {id : ObjectId} {allowed : Instance.Call → Prop} {o : Instance}
  {events : List Event} {e : Event} {target : State} {saved : Option (List Slot)}
  {slots : List Slot}

def LeavesRow (id : ObjectId) (w : World) (e : Event) : Prop :=
  ∀ c, e = .call c → (w.call c).after.store.row? id = w.store.row? id

private theorem leavesRow_of_respects (ha : w.session.tx.active = true)
    (hflush : ∀ c, allowed c → c ≠ .flush) (he : w.Respects id allowed e) : w.LeavesRow id e := by
  -- While a transaction is open, no row is written but by a flush.
  rintro c rfl
  cases hw : c.isWrite with
  | false => rw [call_store hw fun _ _ _ _ => .inl ha]
  | true =>
    cases c with
    | commit => exact he.elim
    | object k c =>
      have hc : c = .flush := by
        cases c <;> first | rfl | cases hw
      refine onObject_other he.1 ?_
      rintro rfl
      exact hflush c (he.2 rfl) hc
    | _ => cases hw

private theorem throughout_leavesRow (ha : w.session.tx.active = true)
    (hflush : ∀ c, allowed c → c ≠ .flush) (hrun : w.Throughout (Respects id allowed) events) :
    w.Throughout (LeavesRow id) (events ++ [.call .rollback]) := by
  induction events generalizing w with
  | nil =>
    refine ⟨?_, trivial⟩
    rintro c ⟨⟩
    exact congrArg (·.row? id) (Session.rollback_store w.pair)
  | cons e rest ih =>
    exact ⟨leavesRow_of_respects ha hflush hrun.1,
      ih ((congrArg (·.active) (hrun.1.tx ha)).trans ha) hrun.2⟩

private theorem undone (h : Reached ordinary w) (ha : w.session.tx.active = true)
    (ho : w.session.object id = .ok o) (hu : o.Undoable target saved)
    (hallowed : ∀ c, allowed c → c.settles w.session.tx target = false)
    (hrun : w.Throughout (Respects id allowed) events) :
    Reached ordinary (w.after (events ++ [.call .rollback])) ∧
      ∃ a store, (w.after events).session.object id = .ok a ∧ a.Undoable target saved ∧
        (w.after (events ++ [.call .rollback])).session.object id =
          .ok (a.apply w.session.tx store .rollback).after := by
  have hkeeps : ∀ {tx tx' : Transaction} {b b' : Instance}, b.Turn allowed tx tx' b' →
      tx = w.session.tx ∧ b.Undoable target saved →
      tx' = w.session.tx ∧ b'.Undoable target saved := by
    rintro tx tx' b b' hturn ⟨rfl, hb⟩
    refine ⟨?_, hb.turn (.inl ha) hallowed hturn⟩
    cases hturn with
    | told store hbegin =>
      rw [(Transaction.begin_eq_ok hbegin).1] at ha
      cases ha
    | _ => rfl
  obtain ⟨hreached, a, ha', htx, hundoable⟩ := h.follow hkeeps ho ⟨rfl, hu⟩ hrun
  have henlisted : a.enlisted = true := by
    refine (hreached.enlistedExactly.each a (Session.object_eq_ok ha').1).mpr (.inl ?_)
    have hs := hundoable.state
    revert hs
    cases a.state <;> simp [State.isUncommitted, State.isTransactional]
  obtain ⟨store, hback⟩ :=
    hreached.rollback_object ((congrArg (·.active) htx).trans ha) ha' henlisted
  rw [after_append]
  exact ⟨hreached.step (e := .call .rollback) rfl, a, store, ha', hundoable, htx ▸ hback⟩

/-- The transient instance was changed by a write that found it with these slots, and has been so
ever since, whatever happened in between. -/
inductive ChangedFrom (id : ObjectId) (slots : List Slot) : World → Prop
  | written {w : World} {o : Instance} {field : FieldRef} {v : Value} {a : Answer}
    (h : Reached ordinary w) (ha : w.session.tx.active = true) (ho : w.session.object id = .ok o)
    (hs : o.state = .transientClean) (hslots : o.cache.slots = slots)
    (hok : (w.call (.object id (.write field v))).answer = .ok a) :
    ChangedFrom id slots (w.call (.object id (.write field v))).after
  | step {w : World} {e : Event} {o : Instance} (h : ChangedFrom id slots w)
    (he : e.isOrdinary = true) (ho : (w.next e).session.object id = .ok o)
    (hs : o.state = .transientDirty) : ChangedFrom id slots (w.next e)

private theorem persist_object_new {schema : Schema} {values : List Value} {a : Instance}
    (ho : w.session.object w.ids.peek = .ok o)
    (ha : (w.call (.persist schema values)).after.session.object w.ids.peek = .ok a) :
    a = o ∨ a.state = .persistentNew := by
  change (w.call (.persist schema values)).after.pair.2.object w.ids.peek = _ at ha
  rw [call_persist, Session.persist] at ha
  cases hc : Instance.create w.ids.peek schema values with
  | error f =>
    rw [hc] at ha
    exact .inl (Except.ok.inj (ha.symm.trans ho))
  | ok b =>
    rw [hc] at ha
    simp only at ha
    split at ha
    · exact .inl (Except.ok.inj (ha.symm.trans ho))
    · have hid : (b.apply w.session.tx w.store .makePersistent).after.id = w.ids.peek := by
        rw [(apply_frame ..).1, create_eq_ok hc]
      rw [← hid] at ha
      obtain rfl := Except.ok.inj (ha.symm.trans (Session.object_manage ..))
      refine .inr ?_
      change (b.apply w.session.tx w.store .makePersistent).after.state = _
      rw [Undoable.apply_makePersistent _ _ (.inl (by rw [create_eq_ok hc])), enter_state]

private theorem end_of_changed (h : o.state = .transientDirty ∨ o.state = .transientClean)
    {r : Request} (hr : r = .retrieve true ∨ r = .detach ∨ r = .commit ∨ r = .rollback)
    (tx : Transaction) (store : Store) :
    (o.apply tx store r).after = o ∨ (o.apply tx store r).after.state = .transientClean := by
  obtain ⟨id, schema, plan, cache, state, enlisted, connected⟩ := o
  rcases h with rfl | rfl <;> rcases hr with rfl | rfl | rfl | rfl <;>
    first | exact .inl rfl | exact .inr rfl

/-- Whoever has the identity is the instance as it was, or clean. -/
def SameOrClean (id : ObjectId) (o b : Instance) : Prop :=
  b.id = id → b = o ∨ b.state = .transientClean

section
variable {b : Instance} {r : Request}

private theorem sameOrClean_apply (hs : o.state = .transientDirty)
    (hr : r = .retrieve true ∨ r = .detach ∨ r = .commit ∨ r = .rollback)
    (tx : Transaction) (store : Store) (h : SameOrClean id o b) :
    SameOrClean id o (b.apply tx store r).after := by
  intro hid
  rw [(apply_frame ..).1] at hid
  rcases h hid with rfl | hclean
  · exact end_of_changed (.inl hs) hr tx store
  · refine .inr ?_
    rcases end_of_changed (.inr hclean) hr tx store with heq | heq
    · exact (congrArg Instance.state heq).trans hclean
    · exact heq

private theorem sameOrClean_flush (hs : o.state = .transientDirty) (store : Store)
    (h : SameOrClean id o b) : SameOrClean id o (b.flush store).after.2 := by
  -- There is nothing to be flushed.
  intro hid
  rw [(flush_own store b).id] at hid
  have hp : b.state.isPersistent = false := by
    rcases h hid with rfl | hclean
    · rw [hs]
      rfl
    · rw [hclean]
      rfl
  rw [flush_of_not_persistent hp]
  exact h hid

end

private theorem object_of_end (h : Reached ordinary w) (ho : w.session.object id = .ok o)
    (hs : o.state = .transientDirty) {c : Session.Call} (hc : c = .commit ∨ c = .rollback)
    {a : Instance} (ha : (w.call c).after.session.object id = .ok a) :
    a = o ∨ a.state = .transientClean := by
  have hfirst : SameOrClean id o o := fun _ => .inl rfl
  obtain ⟨b, hb, hlast⟩ := h.end_object ho hfirst hc (fun store _ => sameOrClean_flush hs store)
    fun store _ _ hr => sameOrClean_apply hs hr w.session.tx store
  obtain rfl : b = a := Except.ok.inj (hb.symm.trans ha)
  exact hlast (Session.object_eq_ok ha).2

private theorem next_changed (h : Reached ordinary w) (ho : w.session.object id = .ok o)
    (hu : o.Undoable .transientClean (some slots)) (he : e.isOrdinary = true) {a : Instance}
    (ha : (w.next e).session.object id = .ok a) (hs : a.state = .transientDirty) :
    a.Undoable .transientClean (some slots) := by
  have hsame : a = o → a.Undoable .transientClean (some slots) := fun heq => heq ▸ hu
  by_cases hrespects : w.Respects id (· ≠ .makePersistent) e
  · obtain ⟨a', ha', hturn⟩ := next_turn h ho hrespects
    obtain rfl : a' = a := Except.ok.inj (ha'.symm.trans ha)
    refine hu.turn (.inr rfl) ?_ hturn
    intro c hc
    cases c <;> first | rfl | exact absurd rfl hc | exact Bool.and_false _
  · cases e with
    | foreign store => exact absurd trivial hrespects
    | call c =>
      cases c with
      | commit | rollback =>
        refine hsame ((object_of_end h ho hu.transientDirty (by simp) ha).resolve_right ?_)
        simp [hs]
      | persist schema values =>
        obtain rfl : w.ids.peek = id := Classical.not_not.mp hrespects
        refine hsame ((persist_object_new ho ha).resolve_right ?_)
        simp [hs]
      | object k c =>
        have hmade : k = id ∧ c = .makePersistent := by
          refine Classical.not_not.mp fun hne => hrespects ⟨he, fun hk hc => hne ⟨hk, hc⟩⟩
        obtain ⟨rfl, rfl⟩ := hmade
        have ha' := (object_of_call (c := .makePersistent) rfl ho).2.2
        obtain rfl := Except.ok.inj (ha.symm.trans ha')
        have hleads := (Undoable.of_makePersistent w.session.tx w.store
          (.inr (.inr hu.transientDirty))).leads
        rw [show (o.apply w.session.tx w.store .makePersistent).after.state = _ from hs] at hleads
        cases hleads
      | beginTransaction | finishTransaction => cases he
      | _ => exact absurd trivial hrespects

private theorem ChangedFrom.undoable (h : w.ChangedFrom id slots) : Reached ordinary w ∧
    ∃ o, w.session.object id = .ok o ∧ o.Undoable .transientClean (some slots) := by
  induction h with
  | written h ha ho hs hslots hok =>
    obtain ⟨n, o', _, hwrite, _, ho'⟩ := write_of_answer ho hok
    have hu := Undoable.of_write ha (.inl hs) hwrite
    rw [if_pos hs, hslots] at hu
    exact ⟨h.step (e := .call (.object id (.write _ _))) rfl, o', ho', hu⟩
  | step _ he ho hs ih =>
    obtain ⟨h, a, ha, hu⟩ := ih
    exact ⟨h.step he, _, ho, next_changed h ha hu he ho hs⟩

end World

open World

private theorem write_undone {w : World} (h : Reached ordinary w) (ha : w.session.tx.active = true)
    {id : ObjectId} {o : Instance} (ho : w.session.object id = .ok o) {field : FieldRef} {v : Value}
    {a : Answer} {allowed : Instance.Call → Prop} {events : List Event} {target : State}
    (hs : o.state = .transientClean ∧ target = .transientClean ∨
      w.session.tx.options.restoreValues = true ∧ target = .nontransactional ∧
        (o.state = .hollow ∨ o.state = .persistentClean ∨ o.state = .nontransactional))
    (hok : (w.call (.object id (.write field v))).answer = .ok a)
    (hallowed : ∀ c, allowed c → c.settles w.session.tx target = false)
    (hrun : (w.call (.object id (.write field v))).after.Throughout (Respects id allowed) events) :
    Reached ordinary
        (w.after (.call (.object id (.write field v)) :: events ++ [.call .rollback])) ∧
      ∃ o', (w.after (.call (.object id (.write field v)) :: events ++
          [.call .rollback])).session.object id = .ok o' ∧
        o'.state = target ∧ o'.cache = ⟨o.cache.slots, none⟩ := by
  obtain ⟨n, o₁, _, hwrite, htx, ho₁⟩ := write_of_answer ho hok
  have hreached : Reached ordinary (w.call (.object id (.write field v))).after :=
    h.step (e := .call (.object id (.write field v))) rfl
  have hu : o₁.Undoable target (some o.cache.slots) := by
    have hfirst := Undoable.of_write ha (hs.imp And.left fun hs => ⟨hs.1, hs.2.2⟩) hwrite
    rcases hs with ⟨hs, rfl⟩ | ⟨_, rfl, hs⟩
    · rw [if_pos hs] at hfirst
      exact hfirst
    · have hne : o.state ≠ .transientClean := by rcases hs with hs | hs | hs <;> simp [hs]
      rw [if_neg hne] at hfirst
      exact hfirst
  have hback : w.session.tx.options.restoreValues = true ∨ target = .transientClean :=
    hs.elim (fun hs => .inr hs.2) fun hs => .inl hs.1
  have hne : target ≠ .transient := by
    rcases hs with ⟨_, rfl⟩ | ⟨_, rfl, _⟩ <;> simp
  rw [← htx] at ha hallowed hback
  obtain ⟨hlast, b, store, _, hb, hafter⟩ := undone hreached ha ho₁ hu hallowed hrun
  rw [hb.rollback hback] at hafter
  exact ⟨hlast, _, hafter, enter_state _, enter_cache hne⟩

/-- With snapshots for rollback an instance comes back as it was before its first change. Between
the two it may be written, loaded and deleted, asked for anything that is not a refresh, and lose
its row. -/
theorem rollback_restores_stored {w : World} (h : Reached ordinary w) {id : ObjectId} {o : Instance}
    {field : FieldRef} {v : Value} {a : Answer} {events : List Event}
    (hr : w.session.tx.options.restoreValues = true)
    (hd : w.session.tx.options.detachAllOnCommit = false) (ha : w.session.tx.active = true)
    (ho : w.session.object id = .ok o)
    (hs : o.state = .hollow ∨ o.state = .persistentClean ∨ o.state = .nontransactional)
    (hok : (w.call (.object id (.write field v))).answer = .ok a)
    (hrun : (w.call (.object id (.write field v))).after.Throughout
      (Respects id (· ≠ .refresh)) events) :
    ∃ o', (w.after (.call (.object id (.write field v)) :: events ++
          [.call .rollback])).session.object id = .ok o' ∧
      o'.state = .nontransactional ∧ o'.enlisted = false ∧ o'.cache = ⟨o.cache.slots, none⟩ := by
  have hallowed : ∀ c : Instance.Call, c ≠ .refresh →
      c.settles w.session.tx .nontransactional = false := by
    intro c hc
    cases c <;> first | rfl | exact absurd rfl hc | exact congrArg (· && _) hd
  obtain ⟨hlast, o', ho', hstate, hcache⟩ :=
    write_undone h ha ho (.inr ⟨hr, rfl, hs⟩) hok hallowed hrun
  refine ⟨o', ho', hstate, ?_, hcache⟩
  have henlisted := hlast.enlistedExactly.each o' (Session.object_eq_ok ho').1
  refine Bool.eq_false_iff.mpr fun he => ?_
  have hin := henlisted.mp he
  simp [hstate, State.isTransactional] at hin

def aboutToChange : World :=
  Sample.run { Options.standard with restoreValues := true }
    [.begin, .persist Sample.account [.text "A-1", .integer 10], .commit, .begin]

def upheaval : List Event :=
  [.call (.object Sample.first (.retrieve false)), .foreign .empty,
    .call (.object Sample.first (.write (.number 1) (.integer 12))),
    .call (.object Sample.first .deletePersistent), .call (.object Sample.first .detach),
    .call .evictAll]

/-- An instance is changed twice, loses its row, is deleted, and what else is asked of it is
refused. -/
theorem rollback_restores_stored_upheaval :
    ∃ o', (aboutToChange.after (.call (.object Sample.first (.write (.number 1) (.integer 11))) ::
        upheaval ++ [.call .rollback])).session.object Sample.first = .ok o' ∧
      o'.state = .nontransactional ∧ o'.enlisted = false ∧
      o'.cache = ⟨[.clean (.text "A-1"), .unloaded], none⟩ := by
  have hrun : (aboutToChange.call (.object Sample.first
      (.write (.number 1) (.integer 11)))).after.Throughout
        (Respects Sample.first (· ≠ .refresh)) upheaval :=
    ⟨⟨rfl, nofun⟩, trivial, ⟨rfl, nofun⟩, ⟨rfl, nofun⟩, ⟨rfl, nofun⟩, trivial, trivial⟩
  exact rollback_restores_stored (Sample.reached_run (by decide)) rfl rfl rfl rfl (.inl rfl) rfl
    hrun

private theorem undoable_of_makePersistent {w : World} {id : ObjectId} {o : Instance}
    {slots : List Slot} (ho : w.session.object id = .ok o)
    (hs : o.cache.slots = slots ∧ (o.state = .transient ∨ o.state = .transientClean) ∨
      w.ChangedFrom id slots) :
    ∃ saved, (o.apply w.session.tx w.store .makePersistent).after.Undoable .transient saved ∧
      (w.session.tx.options.restoreValues = true → saved = some slots) := by
  -- What the new instance goes back to: what it held when it was made persistent, or before its
  -- first change if it was changed already.
  rcases hs with ⟨rfl, hs⟩ | hchanged
  · have hclean : o.state.isDirty = false := by rcases hs with hs | hs <;> rw [hs] <;> rfl
    refine ⟨_, Undoable.of_makePersistent _ _ (hs.imp_right .inl), fun hr => ?_⟩
    rw [if_pos ⟨hr, by simp [hclean]⟩]
  · obtain ⟨_, o', ho', hu⟩ := hchanged.undoable
    obtain rfl := Except.ok.inj (ho.symm.trans ho')
    have hdirty : o.state.isDirty = true := by rw [hu.transientDirty]; rfl
    refine ⟨_, Undoable.of_makePersistent _ _ (.inr (.inr hu.transientDirty)), fun _ => ?_⟩
    rw [if_neg (by simp [hdirty]), hu.saved]

private theorem makePersistent_undone {w : World} (h : Reached ordinary w)
    (ha : w.session.tx.active = true) {id : ObjectId} {o : Instance}
    (ho : w.session.object id = .ok o) {slots : List Slot} {events : List Event}
    (hs : o.cache.slots = slots ∧ (o.state = .transient ∨ o.state = .transientClean) ∨
      w.ChangedFrom id slots)
    (hrun : (w.call (.object id .makePersistent)).after.Throughout
      (Respects id fun c => c ≠ .flush ∧ ∀ use, c ≠ .makeTransient use) events) :
    ∃ b o', (w.after (.call (.object id .makePersistent) :: events)).session.object id = .ok b ∧
      (w.after (.call (.object id .makePersistent) :: events ++ [.call .rollback])).session.object
        id = .ok o' ∧
      o'.Released (if w.session.tx.options.restoreValues then slots.map (·.value)
        else b.cache.values) := by
  obtain ⟨_, htx, ho₁⟩ := object_of_call (c := .makePersistent) rfl ho
  have hreached : Reached ordinary (w.call (.object id .makePersistent)).after :=
    h.step (e := .call (.object id .makePersistent)) rfl
  have hallowed : ∀ c : Instance.Call, (c ≠ .flush ∧ ∀ use, c ≠ .makeTransient use) →
      c.settles w.session.tx .transient = false := by
    intro c hc
    cases c <;> first | rfl | exact absurd rfl (hc.2 _)
  obtain ⟨saved, hu, hsaved⟩ := undoable_of_makePersistent ho hs
  rw [← htx] at ha hallowed hsaved ⊢
  obtain ⟨_, b, store, hbefore, hb, hafter⟩ := undone hreached ha ho₁ hu hallowed hrun
  have hne : b.state ≠ .transient := hb.target_ne.symm
  split
  · next hr =>
    obtain rfl := hsaved hr
    rw [hb.rollback (.inl hr)] at hafter
    exact ⟨b, _, hbefore, hafter, released_enter (o := { b with cache := ⟨slots, none⟩ }) hne⟩
  · next hr =>
    rw [hb.rollback_keeps (by simpa using hr)] at hafter
    exact ⟨b, _, hbefore, hafter, released_enter (o := { b with cache := b.cache.clearSaved }) hne⟩

/-- A transient instance that was changed within a transaction comes back clean and as it was
before, under any options. One that was made persistent is let go again, without a row: with the
values that it had before its first change if values are to be restored, and otherwise with the ones
it has. -/
theorem rollback_restores_transient {w : World} (h : Reached ordinary w)
    (ha : w.session.tx.active = true) {id : ObjectId} {o : Instance}
    (ho : w.session.object id = .ok o) :
    (∀ (field : FieldRef) (v : Value) (a : Answer) (events : List Event),
      o.state = .transientClean → (w.call (.object id (.write field v))).answer = .ok a →
      (w.call (.object id (.write field v))).after.Throughout
        (Respects id (· ≠ .makePersistent)) events →
      ∃ o', (w.after (.call (.object id (.write field v)) :: events ++
          [.call .rollback])).session.object id = .ok o' ∧
        o'.state = .transientClean ∧ o'.cache = ⟨o.cache.slots, none⟩) ∧
    ∀ (slots : List Slot) (events : List Event),
      o.cache.slots = slots ∧ (o.state = .transient ∨ o.state = .transientClean) ∨
        w.ChangedFrom id slots →
      (w.call (.object id .makePersistent)).after.Throughout
        (Respects id fun c => c ≠ .flush ∧ ∀ use, c ≠ .makeTransient use) events →
      w.Throughout (LeavesRow id)
        (.call (.object id .makePersistent) :: events ++ [.call .rollback]) ∧
      ∃ b o', (w.after (.call (.object id .makePersistent) :: events)).session.object id = .ok b ∧
        (w.after (.call (.object id .makePersistent) :: events ++ [.call .rollback])).session.object
          id = .ok o' ∧
        o'.Released (if w.session.tx.options.restoreValues then slots.map (·.value)
          else b.cache.values) := by
  refine ⟨fun field v a events hs hok hrun => ?_, fun slots events hs hrun => ⟨⟨?_, ?_⟩, ?_⟩⟩
  · have hallowed : ∀ c : Instance.Call, c ≠ .makePersistent →
        c.settles w.session.tx .transientClean = false := by
      intro c hc
      cases c <;> first | rfl | exact absurd rfl hc | exact Bool.and_false _
    exact (write_undone h ha ho (.inl ⟨hs, rfl⟩) hok hallowed hrun).2
  · have hrespects : w.Respects id (· ≠ .flush) (.call (.object id .makePersistent)) :=
      ⟨rfl, fun _ => by simp⟩
    exact leavesRow_of_respects ha (fun _ hc => hc) hrespects
  · have htx := (object_of_call (c := .makePersistent) rfl ho).2.1
    exact throughout_leavesRow (htx ▸ ha) (fun _ hc => hc.1) hrun
  · exact makePersistent_undone h ha ho hs hrun

def takingPart (options : Options) : World :=
  Sample.run options
    [.begin, .persist Sample.account [.text "A-1", .integer 10], .rollback, .begin,
      .object Sample.first (.makeTransactional false)]

def takingPartChanged (options : Options) : World :=
  ((takingPart options).call (.object Sample.first (.write (.number 1) (.integer 20)))).after

def staying : List Event :=
  [.call (.object Sample.first .makeNontransactional), .call (.object Sample.first .refresh)]

def comingAndGoing : List Event :=
  [.call (.object Sample.first .makePersistent), .call (.object Sample.first .deletePersistent)]

/-- A transient instance takes part in a transaction: it is changed, it is refused to leave, or it
is made persistent and deleted. -/
theorem rollback_restores_transient_takingPart :
    (∃ o', ((takingPartChanged .standard).after (staying ++ [.call .rollback])).session.object
        Sample.first = .ok o' ∧
      o'.state = .transientClean ∧
      o'.cache = ⟨[.clean (.text "A-1"), .clean (.integer 10)], none⟩) ∧
    (∃ o', ((takingPartChanged { Options.standard with restoreValues := true }).after
        (comingAndGoing ++ [.call .rollback])).session.object Sample.first = .ok o' ∧
      o'.Released [.text "A-1", .integer 10]) ∧
    (takingPartChanged .standard).Throughout (LeavesRow Sample.first)
      (comingAndGoing ++ [.call .rollback]) ∧
    ∃ o', ((takingPartChanged .standard).after
        (comingAndGoing ++ [.call .rollback])).session.object Sample.first = .ok o' ∧
      o'.Released [.text "A-1", .integer 20] := by
  have hreached : ∀ options, Reached ordinary (takingPart options) := fun options =>
    Sample.reached_run (by decide)
  have hchanged : ∀ options, Reached ordinary (takingPartChanged options) := fun options =>
    (hreached options).step (e := .call (.object Sample.first (.write _ _))) rfl
  have hgone : ∀ options, ((takingPartChanged options).call
      (.object Sample.first .makePersistent)).after.Throughout
        (Respects Sample.first fun c => c ≠ .flush ∧ ∀ use, c ≠ .makeTransient use)
        [.call (.object Sample.first .deletePersistent)] :=
    fun _ => ⟨⟨rfl, fun _ => ⟨nofun, nofun⟩⟩, trivial⟩
  have ho : (takingPart .standard).session.object Sample.first = .ok _ := rfl
  have hs : (takingPartChanged { Options.standard with restoreValues := true }).session.object
    Sample.first = .ok _ := rfl
  have hk : (takingPartChanged .standard).session.object Sample.first = .ok _ := rfl
  obtain ⟨hclean, _⟩ := rollback_restores_transient (hreached .standard) rfl ho
  obtain ⟨_, hrestored⟩ := rollback_restores_transient (hchanged _) rfl hs
  obtain ⟨_, hkept⟩ := rollback_restores_transient (hchanged .standard) rfl hk
  obtain ⟨_, _, o', _, ho', hreleased⟩ := hrestored _ _
    (.inr (.written (hreached _) rfl rfl rfl rfl rfl)) (hgone _)
  obtain ⟨hrow, b, o'', hb, ho'', hreleased'⟩ := hkept _ _
    (.inr (.written (hreached _) rfl rfl rfl rfl rfl)) (hgone _)
  refine ⟨hclean (.number 1) (.integer 20) _ staying rfl rfl ⟨⟨rfl, nofun⟩, ⟨rfl, nofun⟩, trivial⟩,
    ⟨o', ho', hreleased⟩, hrow, o'', ho'', ?_⟩
  cases hb
  exact hreleased'

end Lifecycle
