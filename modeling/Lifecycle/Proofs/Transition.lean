import Lifecycle.Transition

/-! What the entries of the transition table have in common. A move works on the fields first and
crosses to another state last; where it may lead is bounded by the state it starts from. -/
namespace Lifecycle

namespace Effect

/-- The effect belongs to a crossing. It moves the instance as a whole and looks at no field. -/
def isCrossing : Effect → Bool
  | enlist | evict | disconnect => true
  | _ => false

def keepsLoaded : Effect → Bool
  | restoreFields | clearNonPrimaryKeyFields | clearLoadedFlags | unloadNonFetchPlanFields => false
  | _ => true

def sparesLoaded : Effect → Bool
  | refreshLoadedFields | refreshFieldsInFetchPlan => false
  | e => e.keepsLoaded

def keepsSnapshot : Effect → Bool
  | saveFields | restoreFields | clearSavedFields => false
  | _ => true

def reload : List Effect :=
  [.clearSavedFields, .refreshFieldsInFetchPlan, .unloadNonFetchPlanFields]

def snapshotAfter (held : Bool) : Effect → Bool
  | saveFields => true
  | restoreFields | clearSavedFields => false
  | _ => held

end Effect

namespace Request

def isBoundary : Request → Bool
  | begin | commit | rollback => true
  | _ => false

def isLoading : Request → Bool
  | readField _ | retrieve _ | retrieveWith _ => true
  | _ => false

def keepsChanges : Request → Bool
  | commit | rollback | refresh | deletePersistent | detach => false
  | _ => true

/-- The request may settle the changes that rollback would take back, of an instance that it would
lead to `target`. -/
def settles (target : State) : Request → Bool
  | commit | rollback => true
  | makePersistent => target = .transientClean
  | refresh => target = .nontransactional
  | detach => target ≠ .transientClean
  | makeTransient _ detachAllOnCommit => detachAllOnCommit && target ≠ .transientClean
  | _ => false

end Request

namespace State

def isUnchanged : State → Bool
  | hollow | persistentClean | nontransactional | detachedClean => true
  | _ => false

def isStored : State → Bool
  | transient | transientClean | transientDirty | persistentNew | persistentNewDeleted => false
  | _ => true

def isSelfContained : State → Bool
  | transient | transientClean | transientDirty | persistentNew => true
  | _ => false

def keepsRow (s : State) : Bool :=
  (s.isStored || s.isNew) && !s.isDeleted

def survivesRollback : State → Bool
  | persistentClean | persistentDirty | persistentDeleted | nontransactionalDirty => true
  | _ => false

def isUncommitted : State → Bool
  | transientDirty | persistentNew | persistentDirty | persistentNewDeleted
  | persistentDeleted => true
  | _ => false

def isRefreshable : State → Bool
  | hollow | persistentClean | persistentDirty | nontransactional | nontransactionalDirty => true
  | _ => false

def isBystander : State → Bool
  | transient | transientClean | hollow | nontransactional | detachedClean | detachedDirty => true
  | _ => false

def isDetached : State → Bool
  | detachedClean | detachedDirty => true
  | _ => false

/-- Where an instance is that took part in a transaction that was rolled back. Whoever is nowhere
in the list took no part and stays. -/
def afterRollback (restoreValues : Bool) : State → State
  | persistentNew | persistentNewDeleted => transient
  | transientDirty => transientClean
  | persistentClean | persistentDirty | persistentDeleted | nontransactionalDirty =>
    if restoreValues then nontransactional else hollow
  | s => s

def afterCommit (options : Options) : State → State
  | persistentNew | persistentClean | persistentDirty =>
    if options.detachAllOnCommit then detachedClean
    else if options.retainValues then nontransactional else hollow
  | nontransactionalDirty => if options.detachAllOnCommit then detachedClean else nontransactional
  | hollow => if options.detachAllOnCommit then detachedClean else hollow
  | nontransactional => if options.detachAllOnCommit then detachedClean else nontransactional
  | persistentNewDeleted | persistentDeleted => transient
  | transientDirty => transientClean
  | s => s

def afterRefresh (tx : Transaction) : State → State
  | persistentClean => if tx.active then persistentClean else nontransactional
  | persistentDirty => if tx.isPessimisticActive then persistentClean else nontransactional
  | nontransactionalDirty => nontransactional
  | s => s

variable {s : State}

/-- Where nothing is read again a refresh leads nowhere. -/
theorem afterRefresh_of_not_isRefreshable (tx : Transaction) (h : s.isRefreshable = false) :
    s.afterRefresh tx = s := by
  cases s <;> first | rfl | cases h

/-- After a refresh there is nothing to be written, and there may be another. -/
theorem afterRefresh_of_isRefreshable (tx : Transaction) (h : s.isRefreshable) :
    (s.afterRefresh tx).isRefreshable = true ∧ (s.afterRefresh tx).isDirty = false := by
  cases s <;> simp only [isRefreshable, Bool.false_eq_true] at h <;> simp only [afterRefresh]
  all_goals
    repeat' split
  all_goals exact ⟨rfl, rfl⟩

/-- Whoever is unchanged goes back to a row. -/
theorem isStored_of_isUnchanged (h : s.isUnchanged) : s.isStored := by
  cases s <;> first | rfl | cases h

/-- Whoever survives a rollback goes back to a row. -/
theorem isStored_of_survivesRollback (h : s.survivesRollback) : s.isStored := by
  cases s <;> first | rfl | cases h

/-- What is persistent and not new goes back to a row. -/
theorem isStored_of_isPersistent (hp : s.isPersistent) (hn : s.isNew = false) : s.isStored := by
  revert hp hn
  cases s <;> simp [isPersistent, isNew, isStored]

/-- What is to be read is in the row or in memory. -/
theorem isStored_or_isSelfContained (hp : s.isPersistent) (hd : s.isDeleted = false) :
    s.isStored ∨ s.isSelfContained := by
  revert hp hd
  cases s <;> simp [isPersistent, isDeleted, isStored, isSelfContained]

/-- What has no row yet cannot go back to one. -/
theorem not_stored_of_isSelfContained (h : s.isSelfContained) : s.isStored = false := by
  cases s <;> first | rfl | cases h

/-- Writing gives rows to new instances, takes them from deleted ones, and no more. -/
theorem keepsRow_eq_isStored (hn : s ≠ persistentNew) (hd : s ≠ persistentDeleted) :
    s.keepsRow = s.isStored := by
  cases s <;> first | rfl | contradiction

/-- What is persistent and not deleted is going to have a row. -/
theorem keepsRow_of_isPersistent (hp : s.isPersistent) (hd : s.isDeleted = false) :
    s.keepsRow := by
  revert hp hd
  cases s <;> simp [isPersistent, isDeleted, keepsRow, isStored, isNew]

/-- What is persistent and not dirty is unchanged. -/
theorem isUnchanged_of_isPersistent (hp : s.isPersistent) (hd : s.isDirty = false) :
    s.isUnchanged := by
  revert hp hd
  cases s <;> simp [isPersistent, isDirty, isUnchanged]

end State

namespace Verdict

def Allows (P : Move → Prop) (v : Verdict) : Prop :=
  ∀ m, v = .ok m → P m

variable {P : Move → Prop}

@[simp]
theorem allows_ok {m : Move} : Verdict.Allows P (.ok m) ↔ P m := by
  simp [Allows]

@[simp]
theorem allows_error {r : Refusal} : Verdict.Allows P (.error r) := by
  simp [Allows]

private theorem allows_ite {c : Prop} [Decidable c] {v w : Verdict} :
    Verdict.Allows P (if c then v else w) ↔ (c → v.Allows P) ∧ (¬ c → w.Allows P) := by
  by_cases h : c <;> simp [h]

end Verdict

namespace Move

def onFields (m : Move) : List Effect :=
  m.effects.filter fun e => !e.isCrossing

def snapshotAfter (held : Bool) (m : Move) : Bool :=
  m.effects.foldl Effect.snapshotAfter held

/-- What a move does to the fields is no crossing. -/
theorem isCrossing_of_mem_onFields {m : Move} {e : Effect} (h : e ∈ m.onFields) :
    e.isCrossing = false := by
  simpa using (List.mem_filter.mp h).2

/-- What a move does to the fields is part of its work. -/
theorem mem_effects_of_mem_onFields {m : Move} {e : Effect} (h : e ∈ m.onFields) :
    e ∈ m.effects :=
  (List.mem_filter.mp h).1

/-- The crossing comes last, and only if the state changes. -/
def Regular (source : State) (m : Move) : Prop :=
  m.effects = m.onFields ++ if m.next = source then [] else crossing source m.next

private theorem mem_crossing {e : Effect} {s t : State} (h : e ∈ crossing s t) :
    e = .enlist ∨ e = .evict ∨ e = .disconnect ∧ t = .transient := by
  simp only [crossing] at h
  grind

private theorem restoreFields_notMem_crossing {s t : State} :
    Effect.restoreFields ∉ crossing s t := by
  intro h
  rcases mem_crossing h with h | h | ⟨h, _⟩ <;> cases h

/-- No crossing reads a row. -/
theorem any_isLoad_crossing {s t : State} : (crossing s t).any (·.isLoad) = false := by
  rw [List.any_eq_false]
  intro e he
  rcases mem_crossing he with rfl | rfl | ⟨rfl, _⟩ <;> decide

private theorem all_crossing {s t : State} {p : Effect → Bool} (he : p .enlist) (hv : p .evict)
    (hd : p .disconnect) : (crossing s t).all p = true := by
  rw [List.all_eq_true]
  intro e hmem
  rcases mem_crossing hmem with rfl | rfl | ⟨rfl, _⟩
  · exact he
  · exact hv
  · exact hd

private theorem crossing_self {s : State} (h : s ≠ .transient) : crossing s s = [] := by
  cases s <;> first | rfl | exact absurd rfl h

/-- A move that enters a state does to the fields what comes before the crossing. -/
theorem onFields_enter {fields : List Effect} {s t : State}
    (h : fields.all fun e => !e.isCrossing) :
    onFields ⟨fields ++ crossing s t, t⟩ = fields := by
  have hc : (crossing s t).filter (fun e => !e.isCrossing) = [] := by
    rw [List.filter_eq_nil_iff]
    intro e he
    rcases mem_crossing he with rfl | rfl | ⟨rfl, _⟩ <;> decide
  rw [onFields, List.filter_append, hc, List.append_nil, List.filter_eq_self]
  exact List.all_eq_true.mp h

private theorem onFields_keep {fields : List Effect} {s : State}
    (h : fields.all fun e => !e.isCrossing) :
    onFields ⟨fields, s⟩ = fields :=
  List.filter_eq_self.mpr (List.all_eq_true.mp h)

private theorem regular_keep {fields : List Effect} {s : State}
    (h : fields.all fun e => !e.isCrossing) :
    (keep fields s).Allows (Regular s) := by
  rintro m ⟨⟩
  simp only [Regular, ↓reduceIte, List.append_nil]
  exact (onFields_keep h).symm

private theorem regular_stay (s : State) : (stay s).Allows (Regular s) :=
  regular_keep rfl

/-- Moves that enter a state are regular. -/
theorem regular_enter {fields : List Effect} {s t : State}
    (h : fields.all fun e => !e.isCrossing) (hs : s ≠ .transient ∨ t ≠ s) :
    (enter fields s t).Allows (Regular s) := by
  rintro m ⟨⟩
  rw [Regular, onFields_enter h]
  by_cases ht : t = s
  · subst ht
    simp [crossing_self (hs.resolve_right (fun h => h rfl))]
  · simp [ht]

end Move

section
open Transition

attribute [local simp] transition makePersistent deletePersistent makeTransactional
  makeNontransactional makeTransient Transition.commit Transition.rollback Transition.refresh
  Transition.evict Transition.readField Transition.writeField Transition.retrieve Transition.detach
  Transition.attach Transition.serialize Transition.begin ifReadable ifWritable filledState
  changedState Move.stay Move.keep Move.enter Verdict.allows_ite Move.restoreFields_notMem_crossing
  Request.isBoundary State.isUnchanged State.isStored

variable {tx : Transaction} {identity : Identity} {r : Request} {s : State}

/-- Every move but the one at the beginning of a transaction ends with the crossing to its state. -/
theorem transition_regular (hr : r ≠ .begin) :
    (transition tx identity r s).Allows (Move.Regular s) := by
  cases r <;> cases s <;> simp [-Move.stay, -Move.keep, -Move.enter, -Verdict.allows_ite] at hr ⊢
  all_goals
    repeat' split
  all_goals first
    | exact Verdict.allows_error
    | exact Move.regular_stay _
    | exact Move.regular_keep rfl
    | exact Move.regular_enter rfl (.inl (by decide))
    | exact Move.regular_enter rfl (.inr (by decide))

/-- Snapshots come back only by rollback. -/
theorem restoreFields_only_by_rollback (hr : r ≠ .rollback) :
    (transition tx identity r s).Allows fun m => .restoreFields ∉ m.effects := by
  cases r <;> cases s <;> simp at hr ⊢
  all_goals
    repeat' split
  all_goals simp

/-- The end of a transaction is refused only where nothing is enlisted, and it needs no row. -/
theorem end_loads_nothing (tx : Transaction) (identity : Identity)
    (hr : r = .commit ∨ r = .rollback) (hh : s ≠ .hollow) (hn : s ≠ .nontransactional) :
    ∃ m, transition tx identity r s = .ok m ∧ ∀ e ∈ m.effects, e.isLoad = false := by
  cases s
  case hollow => exact absurd rfl hh
  case nontransactional => exact absurd rfl hn
  all_goals
    rcases hr with rfl | rfl <;>
      simp only [transition, Transition.commit, Transition.rollback] <;>
      first
      | exact ⟨_, rfl, by decide⟩
      | (split <;> exact ⟨_, rfl, by decide⟩)

/-- Where rollback leads, and that it does nothing to those who stay. -/
theorem next_of_rollback :
    (transition tx identity .rollback s).Allows fun m =>
      m.next = s.afterRollback tx.options.restoreValues ∧ (m.next = s → m.effects = []) := by
  cases s <;> simp [State.afterRollback]

/-- Where commit leads whoever was not detached before, and that it does nothing to those who stay.
-/
theorem next_of_commit
    (h : (tx.options.detachAllOnCommit && s.isPersistent && !s.isDeleted) = false) :
    (transition tx identity .commit s).Allows fun m =>
      m.next = s.afterCommit tx.options ∧
        (m.next = s → m.effects = [] ∧ s.isPersistent = false) := by
  cases s <;> simp [State.isPersistent, State.isDeleted] at h <;>
    simp [State.afterCommit, State.isPersistent, h]

/-- Whoever takes part in the end of a transaction has no snapshot afterwards. -/
theorem snapshotAfter_end (hr : r = .commit ∨ r = .rollback) (held : Bool) :
    (transition tx identity r s).Allows fun m =>
      m.snapshotAfter held = (held && s.isBystander) := by
  rcases hr with rfl | rfl <;> cases s <;> simp
  all_goals
    repeat' split
  all_goals
    simp [Move.snapshotAfter, Effect.snapshotAfter, Move.crossing, State.isTransactional,
      State.isBystander]

/-- A change outside any transaction is only made outside any transaction. -/
theorem next_nontransactionalDirty :
    (transition tx identity r s).Allows fun m =>
      m.next = .nontransactionalDirty → s = .nontransactionalDirty ∨ tx.active = false := by
  cases r <;> cases s <;> simp
  all_goals
    split <;> simp_all

/-- At the end of a transaction nothing is left that was changed outside of any. -/
theorem next_at_end (hr : r = .commit ∨ r = .rollback) :
    (transition tx identity r s).Allows fun m => m.next ≠ .nontransactionalDirty := by
  rcases hr with rfl | rfl <;> cases s <;> simp

/-- A refresh is never refused. It reads the fields again, or it does nothing. -/
theorem refresh_granted (tx : Transaction) (identity : Identity) (s : State) :
    ∃ m, transition tx identity .refresh s = .ok m ∧ m.next = s.afterRefresh tx ∧
      if s.isRefreshable then m.onFields = Effect.reload else m.effects = [] := by
  cases s <;> simp only [transition, Transition.refresh, State.afterRefresh]
  case persistentClean =>
    split
    · exact ⟨_, rfl, rfl, Move.onFields_keep rfl⟩
    · exact ⟨_, rfl, rfl, Move.onFields_enter rfl⟩
  case persistentDirty => exact ⟨_, rfl, rfl, Move.onFields_enter rfl⟩
  case nontransactionalDirty => exact ⟨_, rfl, rfl, Move.onFields_enter rfl⟩
  case hollow | nontransactional => exact ⟨_, rfl, rfl, Move.onFields_keep rfl⟩
  all_goals exact ⟨_, rfl, rfl, rfl⟩

private theorem next_unchanged_of_kept (hb : r.isBoundary = false) (hd : r ≠ .detach)
    (hf : r ≠ .refresh) :
    (transition tx identity r s).Allows fun m => m.next.isUnchanged → s.isUnchanged := by
  cases r <;> cases s <;> simp_all

/-- Changes end by commit, rollback or detaching, or they are lost as the fields are read again. -/
theorem next_unchanged (hb : r.isBoundary = false) (hd : r ≠ .detach) :
    (transition tx identity r s).Allows fun m =>
      m.next.isUnchanged → s.isUnchanged ∨ m.onFields = Effect.reload := by
  intro m hm hn
  by_cases hf : r = .refresh
  · subst hf
    obtain ⟨_, hm', hnext, hfields⟩ := refresh_granted tx identity s
    obtain rfl := Except.ok.inj (hm'.symm.trans hm)
    split at hfields
    · exact .inr hfields
    · next hs =>
      rw [hnext, State.afterRefresh_of_not_isRefreshable tx (by simpa using hs)] at hn
      exact .inl hn
  · exact .inl (next_unchanged_of_kept hb hd hf m hm hn)

/-- Only commit and detaching turn an instance into a stored one. -/
theorem next_stored (hc : r ≠ .commit) (hd : r ≠ .detach) :
    (transition tx identity r s).Allows fun m => m.next.isStored → s.isStored := by
  cases r <;> cases s <;> simp_all

/-- A row is given or taken away only where something is written, or the instance is let go. -/
theorem next_isStored (hc : r ≠ .commit) (hd : r ≠ .detach)
    (ht : ∀ use all, r ≠ .makeTransient use all) :
    (transition tx identity r s).Allows fun m => m.next.isStored = s.isStored := by
  cases r <;> cases s <;> simp at hc hd ht ⊢
  all_goals
    cases tx.isPessimisticActive <;> cases tx.active <;> simp

/-- After a commit those are stored whose row was to be kept. -/
theorem next_of_commit_isStored :
    (transition tx identity .commit s).Allows fun m => m.next.isStored = s.keepsRow := by
  cases s <;> simp [State.keepsRow, State.isNew, State.isDeleted]

/-- Whatever is filled is not hollow. -/
theorem filledState_ne_hollow : filledState tx ≠ .hollow := by
  rw [filledState]
  split <;> simp

/-- A read is granted by one of these moves. -/
inductive ReadMove (tx : Transaction) (s : State) (m : Move) : Prop
  /-- A hollow instance enters another state; the field is loaded afterwards. -/
  | leaves (hs : s = .hollow) (hf : m.onFields = []) (hn : m.next = filledState tx)
  /-- What was cached before a locking transaction is saved and read again. -/
  | rereads (hs : s = .nontransactional) (hp : tx.isPessimisticActive = true)
    (hf : m.onFields = [.saveFields, .refreshLoadedFields]) (hn : m.next = .persistentClean)
  | stays (hh : s ≠ .hollow) (hs : ¬ (s = .nontransactional ∧ tx.isPessimisticActive = true))
    (he : m.effects = []) (hn : m.next = s)

/-- The table grants a read by one of these moves only. -/
theorem readField_moves {isLoaded : Bool} :
    (transition tx identity (.readField isLoaded) s).Allows (ReadMove tx s) := by
  have hstay (hh : s ≠ .hollow) (hs : ¬ (s = .nontransactional ∧ tx.isPessimisticActive = true)) :
      (Move.stay s).Allows (ReadMove tx s) := by
    rintro m ⟨⟩
    exact .stays hh hs rfl rfl
  cases s <;> simp only [transition, Transition.readField, ifReadable]
  case hollow =>
    split
    · split
      · exact Verdict.allows_error
      · rintro m ⟨⟩
        exact .leaves rfl (Move.onFields_enter rfl) rfl
    · exact Verdict.allows_error
  case nontransactional =>
    split
    · split
      · next hp =>
        rintro m ⟨⟩
        exact .rereads rfl hp (Move.onFields_enter rfl) rfl
      · next hp => exact hstay (by simp) fun h => hp h.2
    · exact Verdict.allows_error
  case persistentNewDeleted | persistentDeleted => exact Verdict.allows_error
  case transient | transientClean | transientDirty => exact hstay (by simp) (by simp)
  all_goals
    split
    · exact hstay (by simp) (by simp)
    · exact Verdict.allows_error

/-- Loading makes no change and takes none back, and what was changed is not loaded again. -/
theorem next_of_loading (hr : r.isLoading) :
    (transition tx identity r s).Allows fun m =>
      (s.isPersistent → m.next.isPersistent) ∧
        (s.isPersistent → s.isUnchanged → m.next.isUnchanged) ∧
        (s = .persistentDirty →
          m.next = .persistentDirty ∧ m.effects.all (·.sparesLoaded) = true) := by
  cases r <;> simp only [Request.isLoading, Bool.false_eq_true] at hr <;> cases s <;>
    simp [State.isPersistent, Effect.sparesLoaded, Effect.keepsLoaded]
  case retrieve.persistentDirty fetchPlanOnly => cases fetchPlanOnly <;> rfl
  all_goals
    cases tx.isPessimisticActive <;> simp

/-- The same is true of an eviction: of whoever was changed nothing is dropped. -/
theorem next_of_evict :
    (transition tx identity .evict s).Allows fun m =>
      (s.isPersistent → m.next.isPersistent) ∧
        (s.isPersistent → s.isUnchanged → m.next.isUnchanged) ∧
        (s = .persistentDirty →
          m.next = .persistentDirty ∧ m.effects.all (·.sparesLoaded) = true) := by
  cases s <;> simp [State.isPersistent]

/-- No read leads to a deleted state. -/
theorem next_of_readField {isLoaded : Bool} :
    (transition tx identity (.readField isLoaded) s).Allows fun m => m.next.isDeleted = false := by
  cases s <;> simp [State.isDeleted]
  all_goals
    cases tx.isPessimisticActive <;> simp

/-- A read leads to no persistence and out of none. It lets go of no instance and leaves none
hollow. -/
theorem readField_next {isLoaded : Bool} :
    (transition tx identity (.readField isLoaded) s).Allows fun m =>
      m.next.isPersistent = s.isPersistent ∧ (m.next = .transient → s = .transient) ∧
        m.next ≠ .hollow := by
  cases s <;> simp [State.isPersistent]
  all_goals
    cases tx.isPessimisticActive <;> simp

/-- All that a read does to the fields is to save them and to load those again that are loaded. -/
theorem readField_onFields {isLoaded : Bool} :
    (transition tx identity (.readField isLoaded) s).Allows fun m =>
      m.onFields = [] ∨ m.onFields = [.saveFields, .refreshLoadedFields] := by
  intro m hm
  cases readField_moves m hm with
  | leaves _ hf _ => exact .inl hf
  | rereads _ _ hf _ => exact .inr hf
  | stays _ _ he _ =>
    refine .inl ?_
    rw [Move.onFields, he]
    rfl

/-- Whoever becomes hollow forgets all but the key; whoever stays hollow is left alone, unless it is
refreshed. -/
theorem next_hollow :
    (transition tx identity r s).Allows fun m => m.next = .hollow →
      m.onFields = [.clearSavedFields, .clearNonPrimaryKeyFields] ∨
        m.onFields = [.clearNonPrimaryKeyFields, .clearSavedFields] ∨
        s = .hollow ∧ (m.onFields = [] ∨ r = .refresh) := by
  cases r <;> cases s <;> simp
  all_goals
    repeat' split
  all_goals simp [Move.onFields, Effect.isCrossing, Move.crossing, State.isTransactional]

/-- Values that are clean can be dropped. -/
theorem evict_granted (tx : Transaction) (identity : Identity) (hp : s.isPersistent)
    (hd : s.isDirty = false) :
    ∃ m, transition tx identity .evict s = .ok m ∧ ∀ e ∈ m.effects, e.isLoad = false := by
  cases s <;> simp [State.isPersistent, State.isDirty] at hp hd
  case hollow => exact ⟨_, rfl, by simp⟩
  all_goals exact ⟨_, rfl, by decide⟩

/-- From the flushes of a commit on, instances are stored only where a row was written or is there.
-/
theorem next_settled (hr : r = .retrieve true ∨ r = .detach ∨ r = .commit) :
    (transition tx identity r s).Allows fun m => m.next = s ∨
      (s.isPersistent ∧ s.isDeleted = false) ∨
        m.next.isPersistent = false ∧ m.next.isStored = false := by
  rcases hr with rfl | rfl | rfl <;> cases s <;> simp [State.isPersistent, State.isDeleted]

/-- What has no row loads nothing, unless it is made transient with its fetch plan. -/
theorem load_of_not_stored (hs : s.isStored = false) :
    (transition tx identity r s).Allows fun m => m.effects.any (·.isLoad) = true →
      (∃ all, r = .makeTransient true all) ∧ m.onFields = [.loadUnloadedFieldsInFetchPlan] := by
  cases r <;> cases s <;> simp only [State.isStored, reduceCtorEq] at hs <;>
    simp [-List.any_eq_true, -List.any_eq_false, List.any_append, Move.any_isLoad_crossing]
  all_goals repeat' split
  case makeTransient.persistentNew.isTrue h => exact fun _ _ => ⟨h, Move.onFields_enter rfl⟩
  all_goals simp [Effect.isLoad]

/-- Whoever has no row was released from one, or had none before. -/
theorem next_selfContained :
    (transition tx identity r s).Allows fun m => m.next.isSelfContained →
      m.next = .transient ∧ s ≠ .transient ∨ s.isSelfContained := by
  cases r <;> cases s <;> simp [State.isSelfContained]
  all_goals
    cases tx.isPessimisticActive <;> cases tx.active <;> simp

/-- What stays without a row keeps its values in memory, up to the return to a snapshot. -/
theorem keepsLoaded_of_selfContained (hs : s.isSelfContained)
    (ht : s ≠ .transientDirty ∨ r ≠ .rollback) :
    (transition tx identity r s).Allows fun m => m.next.isSelfContained →
      m.next = .transient ∧ s ≠ .transient ∨ m.effects.all (·.keepsLoaded) = true := by
  have hcrossing : ∀ s t, (Move.crossing s t).all (·.keepsLoaded) = true :=
    fun _ _ => Move.all_crossing rfl rfl rfl
  cases s <;> simp only [State.isSelfContained, reduceCtorEq] at hs <;> cases r <;>
    simp [-List.all_eq_true, List.all_append, hcrossing, State.isSelfContained] at ht ⊢
  all_goals repeat' split
  all_goals simp [Effect.keepsLoaded]

/-- The first change of a transient instance in a transaction takes a snapshot, and no other. -/
theorem next_transientDirty :
    (transition tx identity r s).Allows fun m => m.next = .transientDirty →
      s = .transientDirty ∧ m.effects = [] ∨ s = .transientClean ∧ m.onFields = [.saveFields] := by
  cases r <;> cases s <;> simp
  case writeField.transientClean =>
    intro _
    change Move.onFields ⟨[.saveFields] ++ _, _⟩ = [.saveFields]
    exact Move.onFields_enter rfl
  all_goals
    split <;> simp

/-- Rollback makes nobody clean but those who return to their rows, and of whoever has a row no one
else goes back to a snapshot. -/
theorem rollback_of_not_survives (hs : s.survivesRollback = false) :
    (transition tx identity .rollback s).Allows fun m =>
      (m.next.isUnchanged → s.isUnchanged) ∧ (s.isStored → .restoreFields ∉ m.effects) := by
  cases s <;> simp [State.survivesRollback] at hs ⊢

/-- Without snapshots to go back to, rollback restores no stored instance. -/
theorem rollback_restores_nothing (hr : tx.options.restoreValues = false) :
    (transition tx identity .rollback s).Allows fun m =>
      s.isStored → .restoreFields ∉ m.effects := by
  cases s <;> simp [hr]

section
variable {load : Effect}

/-- Only a hollow instance is not retrieved, and only where it may not be read. -/
theorem retrieve_granted_iff :
    (∃ m, Transition.retrieve tx load s = .ok m) ↔ (s = .hollow → tx.permitsRead = true) := by
  cases s <;> simp
  case hollow => cases tx.permitsRead <;> simp
  case nontransactional => split <;> simp

/-- Within a transaction every retrieve is granted. -/
theorem retrieve_granted (load : Effect) (ha : tx.active) :
    ∃ m, Transition.retrieve tx load s = .ok m :=
  retrieve_granted_iff.mpr fun _ => by simp [Transaction.permitsRead, ha]

/-- A retrieve leaves persistence and deletion as they are. -/
theorem retrieve_next :
    (Transition.retrieve tx load s).Allows fun m =>
      m.next.isPersistent = s.isPersistent ∧ m.next.isDeleted = s.isDeleted := by
  cases s <;> simp [State.isPersistent, State.isDeleted]
  all_goals
    cases tx.isPessimisticActive <;> simp

/-- What a retrieve is to load, it loads last. -/
theorem retrieve_onFields (hl : load.isLoad) (hp : s.isPersistent) (hd : s.isDeleted = false)
    (hn : s ≠ .persistentNew) :
    (Transition.retrieve tx load s).Allows fun m =>
      m.onFields = [load] ∨ m.onFields = [.saveFields, load] := by
  have hc : load.isCrossing = false := by
    revert hl
    cases load <;> simp [Effect.isLoad, Effect.isCrossing]
  cases s <;> simp [State.isPersistent, State.isDeleted] at hp hd hn
  case hollow =>
    simp only [Transition.retrieve, ifReadable]
    split
    · exact fun m h => .inl (by cases h; exact Move.onFields_enter (by simp [hc]))
    · exact Verdict.allows_error
  case nontransactional =>
    have hs : Effect.isCrossing .saveFields = false := rfl
    simp only [Transition.retrieve]
    cases tx.active <;> split
    · exact fun m h => .inl (by cases h; exact Move.onFields_enter (by simp [hc]))
    · exact fun m h => .inl (by cases h; exact Move.onFields_keep (by simp [hc]))
    · exact fun m h => .inr (by cases h; exact Move.onFields_enter (by simp [hc, hs]))
    · exact fun m h => .inr (by cases h; exact Move.onFields_keep (by simp [hc, hs]))
  all_goals exact fun m h => .inl (by cases h; exact Move.onFields_keep (by simp [hc]))

/-- Within a transaction a retrieve takes a snapshot of what was cached before. -/
theorem snapshotAfter_retrieve (ha : tx.active) (hl : load.isLoad) (held : Bool) :
    (Transition.retrieve tx load s).Allows fun m =>
      m.snapshotAfter held = (held || s = .nontransactional) := by
  cases load <;> simp only [Effect.isLoad, Bool.false_eq_true] at hl
  all_goals
    cases s <;> simp [ha]
  all_goals
    cases tx.isPessimisticActive <;>
      simp [Move.snapshotAfter, Effect.snapshotAfter, Move.crossing, State.isTransactional]

/-- Nothing but a deletion stands in the way of a detachment. -/
theorem detach_granted_iff :
    (∃ m, transition tx identity .detach s = .ok m) ↔ s.isDeleted = false := by
  cases s <;> simp [State.isDeleted]

/-- A read is refused of what is deleted, of what may not be read now, of what did not come along,
and of what cannot be found again. -/
theorem readField_granted_iff {isLoaded : Bool} :
    (∃ m, transition tx identity (.readField isLoaded) s = .ok m) ↔
      s.isDeleted = false ∧ (s.isPersistent = true → tx.permitsRead = true) ∧
        (s = .detachedClean ∨ s = .detachedDirty → isLoaded = true) ∧
        (s = .hollow → identity = .nondurable → tx.active = true ∨ isLoaded = true) := by
  cases s <;> simp [State.isDeleted, State.isPersistent]
  case hollow =>
    cases tx.permitsRead <;> cases tx.active <;> cases isLoaded <;> cases identity <;> simp
  case nontransactional =>
    cases tx.permitsRead <;> cases tx.isPessimisticActive <;> simp
  case detachedClean | detachedDirty => cases isLoaded <;> simp
  all_goals
    cases tx.permitsRead <;> simp

/-- Whatever is stored or will be can be detached. -/
theorem detach_granted (tx : Transaction) (identity : Identity) (hp : s.isPersistent)
    (hd : s.isDeleted = false) :
    transition tx identity .detach s = Move.enter [] s .detachedClean := by
  cases s <;> simp [State.isPersistent, State.isDeleted] at hp hd ⊢

end

/-- Within a transaction a stored instance is changed without being refused and without a row. -/
theorem writeField_granted (identity : Identity) (ha : tx.active)
    (hs : s = .persistentDirty ∨ s.isPersistent ∧ s.isUnchanged) :
    ∃ m, transition tx identity .writeField s = .ok m ∧ m.next = .persistentDirty ∧
      m.effects.all (fun e => e.sparesLoaded && !e.isLoad) = true := by
  have hw : tx.permitsWrite = true := by simp [Transaction.permitsWrite, ha]
  cases s <;> simp [State.isPersistent] at hs
  all_goals
    cases hr : tx.options.restoreValues <;>
      simp [ha, hw, hr, Effect.sparesLoaded, Effect.keepsLoaded, Effect.isLoad, Move.crossing,
        State.isTransactional]

/-- A detached copy can always be written. -/
theorem writeField_of_detached (tx : Transaction) (identity : Identity) (hs : s.isDetached) :
    transition tx identity .writeField s = .ok ⟨[], .detachedDirty⟩ := by
  cases s <;> simp only [State.isDetached, Bool.false_eq_true] at hs <;> rfl

/-- By attaching it is enlisted, with its changes if it has any. -/
theorem attach_of_detached (tx : Transaction) (identity : Identity) (hs : s.isDetached) :
    transition tx identity .attach s =
      .ok ⟨[.enlist], if s = .detachedDirty then .persistentDirty else .persistentClean⟩ := by
  cases s <;> simp only [State.isDetached, Bool.false_eq_true] at hs <;> rfl

/-- Any other request leaves it alone, refused or not. -/
theorem idle_of_detached (hs : s.isDetached) (ha : r ≠ .attach) (hw : r ≠ .writeField) :
    (transition tx identity r s).Allows fun m => m = ⟨[], s⟩ := by
  cases s <;> simp only [State.isDetached, Bool.false_eq_true] at hs <;> cases r <;>
    simp at ha hw ⊢

/-- No instance is unchanged after a write. -/
theorem next_of_writeField :
    (transition tx identity .writeField s).Allows fun m => m.next.isUnchanged = false := by
  cases s <;> simp
  all_goals
    cases tx.active <;> simp

/-- A write is refused of what is deleted, and of what may not be written now. -/
theorem writeField_granted_iff :
    (∃ m, transition tx identity .writeField s = .ok m) ↔
      (s.isPersistent = true → s.isDeleted = false ∧ tx.permitsWrite = true) := by
  cases s <;> simp [State.isPersistent, State.isDeleted]
  case transientClean => cases tx.active <;> simp
  all_goals cases tx.permitsWrite <;> simp

/-- All that a write does to the fields beforehand is to save them. -/
theorem writeField_onFields :
    (transition tx identity .writeField s).Allows fun m =>
      m.onFields = [] ∨ m.onFields = [.saveFields] := by
  cases s <;> simp
  all_goals
    cases tx.options.restoreValues <;>
      simp [Move.onFields, Effect.isCrossing, Move.crossing, State.isTransactional]

/-- After a write the instance is dirty, except a transient one outside any transaction. No instance
is let go. -/
theorem writeField_next :
    (transition tx identity .writeField s).Allows fun m =>
      (m.next.isDirty = false ↔
        m.next = .transient ∨ m.next = .transientClean ∧ tx.active = false) ∧
      (m.next = .transient → s = .transient) := by
  cases s <;> simp [State.isDirty]
  all_goals
    cases tx.active <;> simp

/-- A write leads to no deletion, and whoever is deleted is not written. -/
theorem isDeleted_of_writeField :
    (transition tx identity .writeField s).Allows fun m => m.next.isDeleted = false := by
  cases s <;> simp [State.isDeleted]
  all_goals
    cases tx.active <;> simp

/-- Whoever was changed stays changed, and what is loaded stays as it is. -/
theorem next_of_changed (hr : r.keepsChanges) (hu : s.isUnchanged = false)
    (hd : s.isDeleted = false) :
    (transition tx identity r s).Allows fun m =>
      (m.next.isUnchanged = false ∧ m.next.isDeleted = false) ∧
        m.effects.all (·.sparesLoaded) = true := by
  have hcrossing : ∀ s t, (Move.crossing s t).all (·.sparesLoaded) = true :=
    fun _ _ => Move.all_crossing rfl rfl rfl
  cases r <;> simp only [Request.keepsChanges, Bool.false_eq_true] at hr <;> cases s <;>
    simp [-List.all_eq_true, List.all_append, hcrossing, State.isDeleted] at hu hd ⊢
  all_goals
    repeat' split
  all_goals simp [Effect.sparesLoaded, Effect.keepsLoaded]

/-- What is not committed yet stays so, on the way to where rollback leads it, and no snapshot is
taken instead of the one that is held. -/
theorem next_of_uncommitted (hs : s.isUncommitted)
    (hr : r.settles (s.afterRollback true) = false) :
    (transition tx identity r s).Allows fun m =>
      (m.next.isUncommitted = true ∧ m.next.afterRollback true = s.afterRollback true) ∧
        m.effects.all (·.keepsSnapshot) = true := by
  have hcrossing : ∀ s t, (Move.crossing s t).all (·.keepsSnapshot) = true :=
    fun _ _ => Move.all_crossing rfl rfl rfl
  cases s <;> simp only [State.isUncommitted, Bool.false_eq_true] at hs <;> cases r <;>
    simp [-List.all_eq_true, List.all_append, hcrossing, State.isUncommitted,
      State.afterRollback, Request.settles] at hr ⊢
  case persistentNew.makeTransient | persistentDirty.makeTransient => exact hr
  all_goals
    repeat' split
  all_goals simp [Effect.keepsSnapshot]

/-- The first change of an instance in a transaction takes a snapshot: always of a transient one,
and of a stored one if values are to be restored. -/
theorem writeField_saves (identity : Identity) (ha : tx.active)
    (hs : s = .transientClean ∨ tx.options.restoreValues = true ∧
      (s = .hollow ∨ s = .persistentClean ∨ s = .nontransactional)) :
    ∃ t, transition tx identity .writeField s = Move.enter [.saveFields] s t ∧ t ≠ s ∧
      t.isUncommitted = true ∧
      t.afterRollback true =
        if s = .transientClean then .transientClean else .nontransactional := by
  have hw : tx.permitsWrite = true := by simp [Transaction.permitsWrite, ha]
  rcases hs with rfl | ⟨hr, rfl | rfl | rfl⟩
  · exact ⟨.transientDirty, by simp [ha], by decide⟩
  all_goals exact ⟨.persistentDirty, by simp [ha, hw, hr], by decide⟩

/-- Rollback takes uncommitted changes back by way of the snapshot. -/
theorem rollback_of_uncommitted (tx : Transaction) (identity : Identity) (hs : s.isUncommitted)
    (hr : tx.options.restoreValues = true ∨ s = .transientDirty) :
    transition tx identity .rollback s =
      Move.enter [.restoreFields] s (s.afterRollback true) := by
  cases s <;> simp only [State.isUncommitted, Bool.false_eq_true] at hs <;>
    simp [State.afterRollback] at hr ⊢ <;> simp [hr]

end

end Lifecycle
