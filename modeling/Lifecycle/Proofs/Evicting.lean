import Mathlib.Data.List.Forall2
import Lifecycle.Proofs.Cached
import Lifecycle.Proofs.Enlistment

/-! Eviction of everything that is clean. Its result is one function on the instances: since
enlistment is exact, nothing is left to be decided by the visits. -/
namespace Lifecycle

def State.isCached : State → Bool
  | persistentClean | nontransactional => true
  | _ => false

namespace Instance
variable {tx : Transaction} {store : Store} {o o' : Instance}

/-- The instance without its values, unless they are still needed. -/
def evicted (o : Instance) : Instance :=
  if o.state.isCached then
    { o with
      cache := (o.cache.unload fun n => !o.schema.isPrimaryKey n).clearSaved
      state := .hollow
      enlisted := false }
  else o

private theorem evicted_of_isCached (h : o.state.isCached) :
    o.evicted = { o with
      cache := (o.cache.unload fun n => !o.schema.isPrimaryKey n).clearSaved
      state := .hollow
      enlisted := false } :=
  if_pos h

private theorem evicted_of_not_isCached (h : o.state.isCached = false) : o.evicted = o :=
  if_neg (by simp [h])

private theorem evicted_evicted (o : Instance) : o.evicted.evicted = o.evicted := by
  cases h : o.state.isCached with
  | false => rw [evicted_of_not_isCached h, evicted_of_not_isCached h]
  | true =>
    rw [evicted_of_isCached h]
    exact evicted_of_not_isCached rfl

private theorem enter_hollow (h : o.EnlistedExactly tx) (hc : o.state.isCached) :
    o.enter .hollow = { o with state := .hollow, enlisted := false } := by
  obtain ⟨id, schema, plan, cache, state, enlisted, connected⟩ := o
  cases state <;> simp only [State.isCached, Bool.false_eq_true] at hc
  case persistentClean => simp [enter, State.isTransactional]
  case nontransactional =>
    have henlisted : enlisted = false := by
      simpa [EnlistedExactly, State.isTransactional] using h
    simp [enter, State.isTransactional, henlisted]

private theorem apply_evict (h : o.EnlistedExactly tx) (hp : o.state.isPersistent)
    (hd : o.state.isDirty = false) : o.apply tx store .evict = .done o.evicted .hollow := by
  cases hc : o.state.isCached with
  | true =>
    have ht : transition tx o.schema.identity .evict o.state =
        Move.enter [.clearNonPrimaryKeyFields, .clearSavedFields] o.state .hollow := by
      revert hc
      cases o.state <;> simp [State.isCached, transition, Transition.evict]
    have hne : State.hollow ≠ o.state := by
      intro hs
      rw [← hs] at hc
      cases hc
    rw [apply_of_enter ht rfl hne, evicted_of_isCached hc]
    exact congrArg (Outcome.done · State.hollow) (enter_hollow (o := { o with
      cache := (o.cache.unload fun n => !o.schema.isPrimaryKey n).clearSaved }) h hc)
  | false =>
    have hs : o.state = .hollow := by
      revert hp hd hc
      cases o.state <;> simp [State.isPersistent, State.isDirty, State.isCached]
    rw [apply_of_idle (m := ⟨[], .hollow⟩) (by rw [hs]; rfl) rfl hs.symm,
      evicted_of_not_isCached hc, hs]

/-- `o'` is the instance `o` hollowed out: it is found by its key again, and holds nothing else. -/
structure Hollowed (o o' : Instance) : Prop where
  identity : o'.id = o.id ∧ o'.schema = o.schema ∧ o'.plan = o.plan
  connected : o'.connected = o.connected
  state : o'.state = .hollow
  enlisted : o'.enlisted = false
  saved : o'.cache.saved = none
  key : ∀ n, o.schema.isPrimaryKey n = true → o'.cache.slot? n = o.cache.slot? n
  dropped : ∀ n < o.schema.fieldCount, o.schema.isPrimaryKey n = false →
    o'.cache.slot? n = some .unloaded

private theorem evicted_hollowed (hs : o.Sized) (hc : o.state.isCached) : o.Hollowed o.evicted := by
  rw [evicted_of_isCached hc]
  refine ⟨⟨rfl, rfl, rfl⟩, rfl, rfl, rfl, rfl, ?_, ?_⟩
  · intro n hk
    change (o.cache.unload fun n => !o.schema.isPrimaryKey n).slot? n = _
    rw [Cache.slot?_unload]
    simp [hk]
  · intro n hn hk
    change (o.cache.unload fun n => !o.schema.isPrimaryKey n).slot? n = _
    have hsize := hs.lt_length hn
    have hslot : o.cache.slot? n = some o.cache.slots[n] := List.getElem?_eq_getElem hsize
    rw [Cache.slot?_unload, hslot]
    simp [hk]

/-- What becomes of an instance when everything clean is evicted. -/
def Evicts (o o' : Instance) : Prop :=
  if o.state = .persistentClean ∨ o.state = .nontransactional then o.Hollowed o' else o' = o

private theorem evicts_evicted (hs : o.Sized) : o.Evicts o.evicted := by
  rw [Evicts]
  split
  · next hc =>
    refine evicted_hollowed hs ?_
    rcases hc with hc | hc <;> rw [hc] <;> rfl
  · next hc =>
    refine evicted_of_not_isCached ?_
    revert hc
    cases o.state <;> simp [State.isCached]

end Instance

open Instance

namespace World
variable {w : World}

def evicted (w : World) : World :=
  { w with session := { w.session with objects := w.session.objects.map Instance.evicted } }

private theorem evicted_evicted (w : World) : w.evicted.evicted = w.evicted := by
  simp only [evicted, List.map_map]
  congr 3
  funext o
  exact Instance.evicted_evicted o

private theorem call_evictAll (h : ∀ o ∈ w.session.objects, o.EnlistedExactly w.session.tx) :
    w.call .evictAll = .done w.evicted .done := by
  have hsweep : Session.evictAll w.pair = .done w.evicted.pair () := by
    refine Session.sweepWhere_map ?_ ?_
    · intro o ho hp
      simp only [Bool.and_eq_true, Bool.not_eq_true'] at hp
      rw [Session.applying, show w.pair.2.tx = w.session.tx from rfl,
        apply_evict (h o ho) hp.1 hp.2]
      rfl
    · intro o _ hp
      refine evicted_of_not_isCached ?_
      revert hp
      cases o.state <;> simp [State.isPersistent, State.isDirty, State.isCached]
  rw [call, hsweep]
  rfl

end World

/-- Evicting everything never fails. The instances that hold clean values keep nothing but their
keys; the others, the store and the transaction stay as they are, and nothing is left for a second
time. -/
theorem evictAll_result {w : World} (h : Reached ordinary w) :
    ∃ w', w.call .evictAll = .done w' .done ∧
      w.session.objects.Forall₂ Evicts w'.session.objects ∧
      w'.session.tx = w.session.tx ∧ w'.store = w.store ∧ w'.ids = w.ids ∧
      w'.call .evictAll = .done w' .done := by
  have hcall := World.call_evictAll h.enlistedExactly.each
  refine ⟨w.evicted, hcall, ?_, rfl, rfl, rfl, ?_⟩
  · refine List.forall₂_map_right_iff.mpr (List.forall₂_same.mpr ?_)
    intro o ho
    exact evicts_evicted (h.sized ho)
  · have hreached : Reached ordinary w.evicted := by
      have hstep := h.step (e := .call .evictAll) rfl
      rwa [show w.next (.call .evictAll) = w.evicted from congrArg (·.after) hcall] at hstep
    rw [World.call_evictAll hreached.enlistedExactly.each, World.evicted_evicted]

def partlyRead : World :=
  Sample.run { Options.standard with retainValues := true }
    [.begin, .persist Sample.account [.text "A-1", .integer 10],
      .persist Sample.account [.text "A-2", .integer 20],
      .persist Sample.account [.text "A-3", .integer 30], .commit, .begin,
      .object Sample.first (.read (.name "balance")),
      .object Sample.second (.write (.name "balance") (.integer 21)),
      .persist Sample.account [.text "A-4", .integer 40]]

/-- Of three accounts whose values survived a commit one is read and one is written in the next
transaction, in which a fourth is made. -/
theorem evictAll_result_partlyRead :
    partlyRead.session.objects.map (·.state) =
        [.persistentClean, .persistentDirty, .nontransactional, .persistentNew] ∧
      ∃ w', partlyRead.call .evictAll = .done w' .done ∧
        partlyRead.session.objects.Forall₂ Evicts w'.session.objects ∧
        w'.session.objects.map (·.state) =
          [.hollow, .persistentDirty, .hollow, .persistentNew] ∧
        w'.call .evictAll = .done w' .done := by
  obtain ⟨w', hcall, hobjects, _, _, _, hagain⟩ :=
    evictAll_result (Sample.reached_run (by decide) : Reached ordinary partlyRead)
  refine ⟨rfl, w', hcall, hobjects, ?_, hagain⟩
  rw [show w' = (partlyRead.call .evictAll).after from congrArg (·.after) hcall.symm]
  rfl

end Lifecycle
