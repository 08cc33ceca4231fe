import Lifecycle.Proofs.Enlistment
import Lifecycle.Proofs.Failures

/-! What a load that fails leaves behind. The load itself changes nothing, but some transitions take
or drop a snapshot before it, and a read leaves the hollow state before it; said is when that shows.
-/
namespace Lifecycle

namespace Move

/-- If the move loads anything, this is what it does before. -/
def LoadsAfter (before : List Effect) (m : Move) : Prop :=
  m.effects.any (·.isLoad) = false ∨
    ∃ load after, m.effects = before ++ load :: after ∧ after.any (·.isLoad) = false

variable {before : List Effect} {load : Effect} {s t : State}

private theorem loadsAfter_stay : (stay s).Allows (LoadsAfter before) := by
  rintro m ⟨⟩
  exact .inl rfl

private theorem loadsAfter_keep (before : List Effect) {after : List Effect}
    (h : after.any (·.isLoad) = false) :
    (keep (before ++ load :: after) s).Allows (LoadsAfter before) := by
  rintro m ⟨⟩
  exact .inr ⟨load, after, rfl, h⟩

private theorem loadsAfter_enter (before : List Effect) {after : List Effect}
    (h : after.any (·.isLoad) = false) :
    (enter (before ++ load :: after) s t).Allows (LoadsAfter before) := by
  rintro m ⟨⟩
  refine .inr ⟨load, after ++ crossing s t, by simp, ?_⟩
  rw [List.any_append, h, any_isLoad_crossing]
  rfl

private theorem loadsAfter_enter_nil : (enter [] s t).Allows (LoadsAfter before) := by
  rintro m ⟨⟩
  exact .inl any_isLoad_crossing

end Move

section
open Transition
variable {tx : Transaction} {identity : Identity} {s : State}

private theorem refresh_loadsAfter :
    (Transition.refresh tx s).Allows (Move.LoadsAfter [.clearSavedFields]) := by
  have hu : [Effect.unloadNonFetchPlanFields].any (·.isLoad) = false := rfl
  cases s <;> simp only [Transition.refresh]
  case persistentClean =>
    split
    · exact Move.loadsAfter_keep [.clearSavedFields] hu
    · exact Move.loadsAfter_enter [.clearSavedFields] hu
  case hollow | nontransactional => exact Move.loadsAfter_keep [.clearSavedFields] hu
  case persistentDirty | nontransactionalDirty => exact Move.loadsAfter_enter [.clearSavedFields] hu
  all_goals exact Move.loadsAfter_stay

private theorem retrieve_loadsAfter {load : Effect} :
    (Transition.retrieve tx load s).Allows
      (Move.LoadsAfter (if s = .nontransactional ∧ tx.active then [.saveFields] else [])) := by
  have hn : ([] : List Effect).any (·.isLoad) = false := rfl
  cases s <;> simp only [Transition.retrieve, ifReadable, reduceCtorEq, false_and, ↓reduceIte,
    true_and]
  case persistentClean | persistentDirty | nontransactionalDirty =>
    exact Move.loadsAfter_keep [] hn
  case hollow =>
    split
    · exact Move.loadsAfter_enter [] hn
    · exact Verdict.allows_error
  case nontransactional =>
    cases tx.active <;> (simp only [Bool.false_eq_true, ↓reduceIte]; split)
    · exact Move.loadsAfter_enter [] hn
    · exact Move.loadsAfter_keep [] hn
    · exact Move.loadsAfter_enter [.saveFields] hn
    · exact Move.loadsAfter_keep [.saveFields] hn
  all_goals exact Move.loadsAfter_stay

private theorem makeTransactional_loadsAfter {refreshFields : Bool} :
    (Transition.makeTransactional refreshFields s).Allows (Move.LoadsAfter []) := by
  have hn : ([] : List Effect).any (·.isLoad) = false := rfl
  cases s <;> simp only [Transition.makeTransactional]
  case transient => exact Move.loadsAfter_enter_nil
  case hollow | nontransactional =>
    split
    · exact Move.loadsAfter_enter [] hn
    · exact Move.loadsAfter_enter_nil
  all_goals exact Move.loadsAfter_stay

private theorem makeTransient_loadsAfter {useFetchPlan detachAllOnCommit : Bool} :
    (Transition.makeTransient useFetchPlan detachAllOnCommit s).Allows (Move.LoadsAfter []) := by
  have hrelease : (Move.enter (if useFetchPlan then [.loadUnloadedFieldsInFetchPlan] else []) s
      .transient).Allows (Move.LoadsAfter []) := by
    split
    · exact Move.loadsAfter_enter [] rfl
    · exact Move.loadsAfter_enter_nil
  cases s <;> simp only [Transition.makeTransient]
  case hollow | persistentClean | nontransactional => exact hrelease
  case persistentNew | persistentDirty | nontransactionalDirty =>
    split
    · exact hrelease
    · exact Verdict.allows_error
  case persistentNewDeleted | persistentDeleted => exact Verdict.allows_error
  all_goals exact Move.loadsAfter_stay

end

namespace Instance
variable {tx : Transaction} {store : Store} {r : Request} {o a : Instance} {id : ObjectId}
  {n : Nat}

private theorem performAll_ok_of_any {es : List Effect} (h : es.any (·.isLoad) = false)
    (store : Store) (o : Instance) : ∃ a, performAll store es o = .done a () := by
  have hok : (performAll store es o).answer = .ok () :=
    performAll_ok store o fun e he => by simpa using List.any_eq_false.mp h e he
  generalize performAll store es o = p at hok
  obtain ⟨a, answer⟩ := p
  cases hok
  exact ⟨a, rfl⟩

/-- If the load of a transition fails, the work before it is done and no more. -/
theorem apply_of_failedLoad {before : List Effect} (hb : before.any (·.isLoad) = false)
    (hm : (transition tx o.schema.identity r o.state).Allows (Move.LoadsAfter before))
    (hf : (o.apply tx store r).answer = .error (.objectNotFound id)) :
    store.row? o.id = none ∧
      o.apply tx store r = .failed (performAll store before o).after (.objectNotFound o.id) := by
  rcases apply_steps tx store r o with
    ⟨refusal, _, ha⟩ | ⟨m, a, ht, ⟨f, hwork, ha⟩ | ⟨_, ha⟩⟩ <;> rw [ha] at hf ⊢
  · have hs := refusal.failure_isStorage o.id o.state r.operation
    rw [Except.error.inj hf] at hs
    cases hs
  · obtain ⟨_, hrow, rfl⟩ := performAll_error (congrArg (·.answer) hwork)
    refine ⟨hrow, ?_⟩
    rcases hm m ht with hnone | ⟨load, after, he, hafter⟩
    · obtain ⟨b, hb⟩ := performAll_ok_of_any hnone store o
      rw [hb] at hwork
      cases hwork
    · obtain ⟨b, hdone⟩ := performAll_ok_of_any hb store o
      rw [he, performAll_append, hdone, Outcome.andThen_done, performAll_cons] at hwork
      rw [hdone]
      cases hp : b.perform store load with
      | error g =>
        rw [hp] at hwork
        cases hwork
        rfl
      | ok b' =>
        -- nothing after the load fails
        obtain ⟨c, hc⟩ := performAll_ok_of_any hafter store b'
        rw [hp] at hwork
        simp only [hc] at hwork
        cases hwork
  · cases hf

/-- A failed load made `a` of the instance. Its fields are as they were, and all the rest is under
the condition `c`. -/
structure LeftAs (c : Prop) (o a : Instance) : Prop where
  id : a.id = o.id
  slots : a.cache.slots = o.cache.slots
  connected : a.connected = o.connected
  same : a = o ↔ c

private theorem LeftAs.self {c : Prop} (h : c) : LeftAs c o o :=
  ⟨rfl, rfl, rfl, ⟨fun _ => h, fun _ => rfl⟩⟩

private theorem LeftAs.of_state {c : Prop} (hid : a.id = o.id)
    (hslots : a.cache.slots = o.cache.slots) (hcon : a.connected = o.connected)
    (hs : a.state ≠ o.state) (h : ¬ c) : LeftAs c o a :=
  ⟨hid, hslots, hcon, ⟨fun heq => absurd (congrArg (·.state) heq) hs, fun hc => absurd hc h⟩⟩

private theorem leftAs_saved :
    LeftAs (o.cache.saved = some o.cache.slots) o { o with cache := o.cache.save } := by
  obtain ⟨_, _, _, ⟨slots, saved⟩, _, _, _⟩ := o
  exact ⟨rfl, rfl, rfl, by simp [Cache.save, eq_comm]⟩

private theorem leftAs_cleared :
    LeftAs (o.cache.saved = none) o { o with cache := o.cache.clearSaved } := by
  obtain ⟨_, _, _, ⟨slots, saved⟩, _, _, _⟩ := o
  exact ⟨rfl, rfl, rfl, by simp [Cache.clearSaved, eq_comm]⟩

private def lookUp (store : Store) (n : Nat) (o : Instance) : Outcome Instance Value :=
  (o.supply store n).andThen fun a _ => .done a (a.cache.value n)

private theorem lookUp_error {f : Failure} (h : (o.lookUp store n).answer = .error f) :
    store.row? o.id = none ∧ o.lookUp store n = .failed o (.objectNotFound o.id) := by
  rw [lookUp] at h ⊢
  generalize hs : o.supply store n = p at h ⊢
  obtain ⟨a, answer⟩ := p
  cases answer with
  | ok u => cases h
  | error g =>
    obtain ⟨hrow, rfl, hafter⟩ := supply_error (congrArg (·.answer) hs)
    obtain rfl : a = o := (congrArg (·.after) hs).symm.trans hafter
    exact ⟨hrow, rfl⟩

private theorem readField_of_granted {m : Move} (hn : n < o.schema.fieldCount)
    (ht : transition tx o.schema.identity (.readField (o.cache.isLoaded n)) o.state = .ok m) :
    o.readField tx store n =
      (performAll store m.onFields o).andThen fun a _ => (a.enter m.next).lookUp store n := by
  rw [readField, ifDeclared, if_pos hn, apply_of_regular ht (transition_regular (by simp) m ht)]
  cases performAll store m.onFields o with
  | mk a answer => cases answer <;> rfl

private theorem granted_of_failedLoad
    (hf : (o.readField tx store n).answer = .error (.objectNotFound id)) :
    n < o.schema.fieldCount ∧
      ∃ m, transition tx o.schema.identity (.readField (o.cache.isLoaded n)) o.state = .ok m := by
  rw [readField, ifDeclared] at hf
  split at hf
  · next hn =>
    refine ⟨hn, ?_⟩
    cases ht : transition tx o.schema.identity (.readField (o.cache.isLoaded n)) o.state with
    | ok m => exact ⟨m, rfl⟩
    | error refusal =>
      have hs := refusal.failure_isStorage o.id o.state .readField
      simp only [apply, ht, Outcome.andThen_failed] at hf
      rw [show refusal.failure o.id o.state .readField = _ from Except.error.inj hf] at hs
      cases hs
  · cases hf

def WithstandsRead (tx : Transaction) (o : Instance) : Prop :=
  o.state ≠ .hollow ∧
    (o.state = .nontransactional → tx.isPessimisticActive = true →
      o.cache.saved = some o.cache.slots ∧ o.cache.loadedFields ≠ [])

private theorem fieldsWhere_of_load_error {selected : Nat → Slot → Bool} {f : Failure}
    (h : o.load store selected = .error f) : o.cache.fieldsWhere selected ≠ [] := by
  intro hnone
  rw [load, if_pos hnone] at h
  cases h

private theorem rereads_of_failedLoad {t : State} (ht : t ≠ .transient) (hs : t ≠ o.state)
    (hf : ((performAll store [.saveFields, .refreshLoadedFields] o).andThen fun a _ =>
      (a.enter t).lookUp store n).answer = .error (.objectNotFound id)) :
    store.row? o.id = none ∧
      ∃ a, ((performAll store [.saveFields, .refreshLoadedFields] o).andThen fun a _ =>
          (a.enter t).lookUp store n) = .failed a (.objectNotFound o.id) ∧
        LeftAs (o.cache.saved = some o.cache.slots ∧ o.cache.loadedFields ≠ []) o a := by
  -- Values are saved before they are read again. If there are none to be read again, the instance
  -- is in its new state when the load fails.
  simp only [performAll_cons, perform] at hf ⊢
  generalize hl : { o with cache := o.cache.save }.load store (fun _ s => s.loaded) = loaded at hf ⊢
  cases loaded with
  | error f =>
    obtain ⟨hrow, rfl⟩ := load_error hl
    have hsome : o.cache.loadedFields ≠ [] :=
      fieldsWhere_of_load_error (o := { o with cache := o.cache.save }) hl
    refine ⟨hrow, _, rfl, rfl, rfl, rfl, leftAs_saved.same.trans ?_⟩
    exact (and_iff_left hsome).symm
  | ok b =>
    obtain ⟨hrow, hfailed⟩ := lookUp_error (o := b.enter t) hf
    rw [enter_id] at hrow hfailed
    rcases load_cases hl with ⟨hnone, rfl⟩ | ⟨row, hrow', rfl⟩
    · refine ⟨hrow, _, hfailed, ?_⟩
      refine .of_state (enter_id _) (congrArg (·.slots) (enter_cache ht)) ?_ ?_ fun h => h.2 hnone
      · exact (enter_kept fun h => absurd h ht).1
      · rw [enter_state]
        exact hs
    · rw [hrow'] at hrow
      cases hrow

private theorem readField_of_failedLoad
    (hf : (o.readField tx store n).answer = .error (.objectNotFound id)) :
    store.row? o.id = none ∧ ∃ a, o.readField tx store n = .failed a (.objectNotFound o.id) ∧
      LeftAs (o.WithstandsRead tx) o a := by
  obtain ⟨hn, m, ht⟩ := granted_of_failedLoad hf
  rw [readField_of_granted hn ht] at hf ⊢
  cases readField_moves m ht with
  | leaves hs hfields hnext =>
    obtain ⟨_, htransient, _⟩ := readField_next m ht
    obtain ⟨hconnected, hcache⟩ := enter_kept (o := o) htransient
    rw [hfields, performAll, Outcome.andThen_done] at hf ⊢
    obtain ⟨hrow, hfailed⟩ := lookUp_error hf
    rw [enter_id] at hrow hfailed
    refine ⟨hrow, _, hfailed, ?_⟩
    refine .of_state (enter_id _) (congrArg (·.slots) hcache) hconnected ?_ fun h => h.1 hs
    rw [enter_state, hs, hnext]
    exact filledState_ne_hollow
  | rereads hs hp hfields hnext =>
    have hcond : o.WithstandsRead tx ↔
        o.cache.saved = some o.cache.slots ∧ o.cache.loadedFields ≠ [] := by
      simp [WithstandsRead, hs, hp]
    rw [hfields, hnext] at hf ⊢
    rw [hcond]
    exact rereads_of_failedLoad (by simp) (by simp [hs]) hf
  | stays hh hs he hnext =>
    have henter : o.enter m.next = o := by rw [hnext, enter, if_pos rfl]
    rw [Move.onFields, he, List.filter_nil, performAll, Outcome.andThen_done, henter] at hf ⊢
    obtain ⟨hrow, hfailed⟩ := lookUp_error hf
    exact ⟨hrow, o, hfailed, .self ⟨hh, fun h hp => absurd ⟨h, hp⟩ hs⟩⟩

namespace Call

def mayLoad : Call → Bool
  | read _ | retrieve _ | retrieveWith _ | refresh | makeTransactional _ | makeTransient _ => true
  | _ => false

end Call

/-- Whether a call that cannot load leaves everything as it was. A refresh drops the snapshot before
it loads, a retrieve takes one within a transaction, and to make an instance transactional or
transient takes nothing but the load. -/
def Withstands (tx : Transaction) (o : Instance) : Call → Prop
  | .read _ => o.WithstandsRead tx
  | .retrieve _ | .retrieveWith _ =>
    o.state = .nontransactional → tx.active = true → o.cache.saved = some o.cache.slots
  | .refresh => o.cache.saved = none
  | _ => True

section
variable {c : Prop}

private theorem plain_of_failedLoad {before : List Effect} (hb : before.any (·.isLoad) = false)
    (hm : (transition tx o.schema.identity r o.state).Allows (Move.LoadsAfter before))
    (hleft : LeftAs c o (performAll store before o).after)
    (hf : (((o.apply tx store r).map Answer.state).within (store, ·)).answer =
      .error (.objectNotFound id)) :
    store.row? o.id = none ∧ ∃ a, ((o.apply tx store r).map Answer.state).within (store, ·) =
      .failed (store, a) (.objectNotFound o.id) ∧ LeftAs c o a := by
  obtain ⟨hrow, ha⟩ := apply_of_failedLoad hb hm (Outcome.error_of_map hf)
  rw [ha]
  exact ⟨hrow, _, rfl, hleft⟩

private theorem retrieve_of_failedLoad {load : Effect}
    (hm : transition tx o.schema.identity r o.state = Transition.retrieve tx load o.state)
    (hf : (((o.apply tx store r).map Answer.state).within (store, ·)).answer =
      .error (.objectNotFound id)) :
    store.row? o.id = none ∧ ∃ a, ((o.apply tx store r).map Answer.state).within (store, ·) =
      .failed (store, a) (.objectNotFound o.id) ∧
        LeftAs (o.state = .nontransactional → tx.active = true →
          o.cache.saved = some o.cache.slots) o a := by
  refine plain_of_failedLoad ?_ (hm ▸ retrieve_loadsAfter) ?_ hf
  · split <;> rfl
  · split
    · next h =>
      refine ⟨rfl, rfl, rfl, leftAs_saved.same.trans ?_⟩
      exact ⟨fun hs _ _ => hs, fun hs => hs h.1 h.2⟩
    · next h => exact .self fun hs ha => absurd ⟨hs, ha⟩ h

private theorem withField_of_failedLoad {α : Type} {field : FieldRef}
    {go : Nat → Outcome Instance α}
    (hgo : ∀ n, (go n).answer = .error (.objectNotFound id) → store.row? o.id = none ∧
      ∃ a, go n = .failed a (.objectNotFound o.id) ∧ LeftAs c o a)
    (hf : (o.withField field go).answer = .error (.objectNotFound id)) :
    store.row? o.id = none ∧
      ∃ a, o.withField field go = .failed a (.objectNotFound o.id) ∧ LeftAs c o a := by
  rw [withField] at hf ⊢
  split at hf
  · next n _ => exact hgo n hf
  · next f hn =>
    have hs := FieldRef.resolve_error hn
    cases hf
    cases hs

end

/-- A call that fails for want of the row leaves the store and the fields alone. -/
theorem call_of_failedLoad {c : Call} (hc : c.mayLoad)
    (hf : (o.call tx c store).answer = .error (.objectNotFound id)) :
    store.row? o.id = none ∧ ∃ a,
      o.call tx c store = .failed (store, a) (.objectNotFound o.id) ∧
        LeftAs (o.Withstands tx c) o a := by
  cases c with
  | refresh => exact plain_of_failedLoad rfl refresh_loadsAfter leftAs_cleared hf
  | retrieve fetchPlanOnly => exact retrieve_of_failedLoad rfl hf
  | retrieveWith plan => exact retrieve_of_failedLoad rfl hf
  | makeTransactional refreshFields =>
    exact plain_of_failedLoad rfl makeTransactional_loadsAfter (.self trivial) hf
  | makeTransient useFetchPlan =>
    exact plain_of_failedLoad rfl makeTransient_loadsAfter (.self trivial) hf
  | read field =>
    obtain ⟨hrow, a, ha, hleft⟩ := withField_of_failedLoad (c := o.WithstandsRead tx)
      (fun n => readField_of_failedLoad) (Outcome.error_of_map hf)
    refine ⟨hrow, a, ?_, hleft⟩
    change ((o.withField field fun n => o.readField tx store n).map Answer.value).within
      (store, ·) = _
    rw [ha]
    rfl
  | _ => cases hc

end Instance

/-- A call that finds no row to load from leaves the store, all other instances and the fields as
they were. All the rest is as it was too, unless the call does something before it loads: a refresh
drops the snapshot, within a transaction what was cached before is saved, and a hollow instance that
is read has entered another state. -/
theorem failed_load_changes_nothing_iff {w : World} (h : Reached ordinary w) {id : ObjectId}
    {o : Instance} (ho : w.session.object id = .ok o) {c : Instance.Call} (hc : c.mayLoad)
    {missing : ObjectId} (hf : (w.call (.object id c)).answer = .error (.objectNotFound missing)) :
    missing = id ∧ w.store.row? id = none ∧
      (∃ o', (w.call (.object id c)).after = { w with session := w.session.manage o' } ∧
        o'.id = id ∧ o'.cache.slots = o.cache.slots ∧ o'.connected = o.connected) ∧
      ((w.call (.object id c)).after = w ↔ o.Withstands w.session.tx c) := by
  have hid := (Session.object_eq_ok ho).2
  have hcall : w.call (.object id c) = (o.call w.session.tx c w.store).within
      fun p => { w with store := p.1, session := w.session.manage p.2 } := by
    rw [World.call, World.onObject, ho]
  rw [hcall] at hf ⊢
  obtain ⟨hrow, o', ho', hleft⟩ := Instance.call_of_failedLoad hc hf
  rw [ho'] at hf ⊢
  rw [hid] at hrow
  refine ⟨(Failure.objectNotFound.inj (Except.error.inj hf)).symm.trans hid, hrow,
    ⟨o', rfl, hleft.id.trans hid, hleft.slots, hleft.connected⟩, ?_⟩
  rw [← hleft.same]
  have hself : w.session.manage o = w.session :=
    Session.manage_object h.enlistedExactly.sorted ho
  constructor
  · intro hw
    have hsession : w.session.manage o' = w.session := congrArg (·.session) hw
    have hfound := Session.object_manage w.session o'
    rw [hsession, hleft.id, hid, ho] at hfound
    exact (Except.ok.inj hfound).symm
  · rintro rfl
    change { w with session := w.session.manage o' } = w
    rw [hself]

def orphaned : World :=
  (Sample.run .standard
    [.begin, .persist Sample.account [.text "A-1", .integer 10], .commit, .begin,
      .object Sample.first (.read (.number 0))]).next (.foreign .empty)

def orphanedInstance : Instance where
  id := Sample.first
  schema := Sample.account
  plan := .standard
  cache := ⟨[.clean (.text "A-1"), .unloaded], none⟩
  state := .persistentClean
  enlisted := true
  connected := true

/-- Only the key of a stored instance is read, and others remove its row. -/
theorem failed_load_changes_nothing_iff_orphaned :
    orphaned.session.object Sample.first = .ok orphanedInstance ∧
      (orphaned.call (.object Sample.first (.read (.name "balance")))).answer =
        .error (.objectNotFound Sample.first) ∧
      orphanedInstance.Withstands orphaned.session.tx (.read (.name "balance")) ∧
      (orphaned.call (.object Sample.first (.read (.name "balance")))).after = orphaned := by
  have hreached : Reached ordinary orphaned := (Sample.reached_run (by decide)).step rfl
  have ho : orphaned.session.object Sample.first = .ok orphanedInstance := rfl
  have hf : (orphaned.call (.object Sample.first (.read (.name "balance")))).answer =
      .error (.objectNotFound Sample.first) := rfl
  have hw : orphanedInstance.Withstands orphaned.session.tx (.read (.name "balance")) :=
    ⟨by decide, fun hs => by cases hs⟩
  obtain ⟨_, _, _, hiff⟩ := failed_load_changes_nothing_iff hreached ho rfl hf
  exact ⟨ho, hf, hw, hiff.mpr hw⟩

def bereft : World :=
  (Sample.run { Options.standard with retainValues := true, restoreValues := true }
    [.begin, .persist Sample.account [.text "A-1", .integer 10], .commit, .begin,
      .object Sample.first (.write (.number 1) (.integer 20))]).next (.foreign .empty)

/-- A load that fails may cost a snapshot: a refresh drops it before it looks for the row. -/
theorem snapshot_lost_by_failed_load :
    ¬ ∀ (w : World) (id : ObjectId) (o : Instance) (c : Instance.Call), Reached ordinary w →
      w.session.object id = .ok o → c.mayLoad →
      (w.call (.object id c)).answer = .error (.objectNotFound id) →
      (w.call (.object id c)).after.session.object id = .ok o := by
  intro h
  have hreached : Reached ordinary bereft := (Sample.reached_run (by decide)).step rfl
  have hsame := h bereft Sample.first _ .refresh hreached rfl rfl rfl
  cases hsame

end Lifecycle
