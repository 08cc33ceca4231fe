import Lifecycle.Proofs.Cached
import Lifecycle.Proofs.Following
import Lifecycle.Proofs.Refreshing
import Lifecycle.Scenario.Step

/-! What a retrieve does to the fields. Those of its selection that are missing are loaded from the
row, and nothing else is touched: neither what was loaded before, changed or not, nor what lies
outside the selection. -/
namespace Lifecycle

namespace Cache
variable {c : Cache} {row? : Option Row} {selection : List Nat} {selected : Nat → Slot → Bool}

/-- All fields of the selection are loaded, those that were missing from the row. What was loaded
before is as it was, and so is whatever is not selected. -/
structure FilledFrom (row? : Option Row) (selection : List Nat) (before after : Cache) : Prop where
  loaded : ∀ n ∈ selection, after.isLoaded n = true
  kept : ∀ n, before.isLoaded n = true → after.slot? n = before.slot? n
  fresh : ∀ n, before.isLoaded n = false → after.isLoaded n = true →
    ∃ row, row? = some row ∧ after.slot? n = some (.clean (row.entry n))
  spared : ∀ n, n ∉ selection → after.slot? n = before.slot? n

structure PicksMissing (count : Nat) (selection : List Nat) (selected : Nat → Slot → Bool) :
    Prop where
  declared : ∀ n ∈ selection, n < count
  picks : ∀ n s, n < count → (selected n s = true ↔ n ∈ selection ∧ s.loaded = false)

private theorem PicksMissing.fieldsWhere (h : PicksMissing c.size selection selected) :
    c.fieldsWhere selected = [] ↔ ∀ n ∈ selection, c.isLoaded n = true := by
  rw [List.eq_nil_iff_forall_not_mem]
  constructor
  · intro hnone n hn
    obtain ⟨s, hs⟩ : ∃ s, c.slot? n = some s := ⟨_, List.getElem?_eq_getElem (h.declared n hn)⟩
    have hnot : ¬ selected n s = true := fun hsel => hnone n (mem_fieldsWhere.mpr ⟨s, hs, hsel⟩)
    rw [h.picks n s (h.declared n hn), not_and, Bool.not_eq_false] at hnot
    exact isLoaded_eq_true.mpr ⟨s, hs, hnot hn⟩
  · intro hall n hmem
    obtain ⟨s, hs, hsel⟩ := mem_fieldsWhere.mp hmem
    obtain ⟨hn, hl⟩ := (h.picks n s (List.getElem?_eq_some_iff.mp hs).1).mp hsel
    have hloaded := hall n hn
    rw [isLoaded, hs, Option.any_some, hl] at hloaded
    cases hloaded

private theorem FilledFrom.of_loaded (h : ∀ n ∈ selection, c.isLoaded n = true) :
    c.FilledFrom row? selection c where
  loaded := h
  kept _ _ := rfl
  fresh n hn hl := by
    rw [hn] at hl
    cases hl
  spared _ _ := rfl

private theorem FilledFrom.of_load (h : PicksMissing c.size selection selected) (row : Row) :
    c.FilledFrom (some row) selection (c.load selected row) where
  loaded n hn := by
    obtain ⟨s, hs⟩ : ∃ s, c.slot? n = some s := ⟨_, List.getElem?_eq_getElem (h.declared n hn)⟩
    rw [isLoaded_load, hs, Option.any_some, Bool.or_eq_true, h.picks n s (h.declared n hn)]
    cases s.loaded <;> simp [hn]
  kept n hl := by
    obtain ⟨s, hs, hl⟩ := isLoaded_eq_true.mp hl
    have hnot : ¬ selected n s = true := by
      simp [h.picks n s (List.getElem?_eq_some_iff.mp hs).1, hl]
    rw [slot?_load, hs, Option.map_some, if_neg hnot]
  fresh n hn hl := by
    rw [isLoaded_load] at hl
    obtain ⟨s, hs, hsel⟩ := (Option.any_eq_true _ _).mp hl
    rw [isLoaded, hs, Option.any_some] at hn
    rw [hn, Bool.or_false] at hsel
    refine ⟨row, rfl, ?_⟩
    rw [slot?_load, hs, Option.map_some, if_pos hsel]
    rfl
  spared n hn := by
    rw [slot?_load]
    cases hs : c.slot? n with
    | none => rfl
    | some s =>
      have hnot : ¬ selected n s = true := by
        simp [h.picks n s (List.getElem?_eq_some_iff.mp hs).1, hn]
      rw [Option.map_some, if_neg hnot]

end Cache

open Cache

namespace Instance
variable {tx : Transaction} {store : Store} {r : Request} {o : Instance} {selection : List Nat}
  {selected : Nat → Slot → Bool} {load : Effect}

private theorem load_fills (store : Store) (saved : Option (List Slot))
    (h : PicksMissing o.cache.size selection selected) :
    ((∃ a, Instance.load store selected { o with cache := ⟨o.cache.slots, saved⟩ } = .ok a) ↔
      (store.row? o.id).isSome = true ∨ ∀ n ∈ selection, o.cache.isLoaded n = true) ∧
    ∀ a, Instance.load store selected { o with cache := ⟨o.cache.slots, saved⟩ } = .ok a →
      o.cache.FilledFrom (store.row? o.id) selection a.cache := by
  constructor
  · rw [← h.fieldsWhere]
    exact load_ok_iff
  · intro a ha
    rcases load_cases ha with ⟨hnone, rfl⟩ | ⟨row, hrow, rfl⟩
    · have hfilled : o.cache.FilledFrom (store.row? o.id) selection o.cache :=
        .of_loaded (h.fieldsWhere.mp hnone)
      exact ⟨hfilled.loaded, hfilled.kept, hfilled.fresh, hfilled.spared⟩
    · have hfilled := FilledFrom.of_load h row
      rw [show store.row? o.id = some row from hrow]
      exact ⟨hfilled.loaded, hfilled.kept, hfilled.fresh, hfilled.spared⟩

structure Loads (o : Instance) (selected : Nat → Slot → Bool) (selection : List Nat)
    (load : Effect) : Prop where
  isLoad : load.isLoad = true
  picks : PicksMissing o.schema.fieldCount selection selected
  perform : ∀ store cache, perform store load { o with cache } =
    Instance.load store selected { o with cache }

private theorem Loads.plan (o : Instance) (plan : FetchPlan) :
    o.Loads (fun n s => o.schema.selects plan n && !s.loaded) (o.schema.planFields plan)
      (.loadUnloadedFieldsInPlan plan) where
  isLoad := rfl
  picks := ⟨fun _ hn => Schema.lt_of_selects (Schema.mem_planFields.mp hn), fun n s _ => by
    simp [Schema.mem_planFields]⟩
  perform _ _ := rfl

/-- A retrieve of the fetch plan loads what is missing of it. -/
theorem Loads.fetchPlan (o : Instance) :
    o.Loads (fun n s => o.schema.selects o.plan n && !s.loaded) (o.schema.planFields o.plan)
      .loadUnloadedFieldsInFetchPlan :=
  { Loads.plan o o.plan with isLoad := rfl, perform := fun _ _ => rfl }

private theorem Loads.all (o : Instance) :
    o.Loads (fun _ s => !s.loaded) (List.range o.schema.fieldCount) .loadUnloadedFields where
  isLoad := rfl
  picks := ⟨fun _ hn => List.mem_range.mp hn, fun n s hn => by simp [hn]⟩
  perform _ _ := rfl

private theorem apply_retrieve_eq {m : Move} (hp : o.state.isPersistent)
    (hd : o.state.isDeleted = false) (hn : o.state ≠ .persistentNew)
    (hl : o.Loads selected selection load)
    (ht : transition tx o.schema.identity r o.state = Transition.retrieve tx load o.state)
    (hm : Transition.retrieve tx load o.state = .ok m) (hr : r ≠ .begin) (store : Store) :
    ∃ saved, o.apply tx store r =
      (Outcome.change { o with cache := ⟨o.cache.slots, saved⟩ }
        (Instance.load store selected { o with cache := ⟨o.cache.slots, saved⟩ })).andThen
        fun o' _ => .done (o'.enter m.next) m.next := by
  have hgranted := ht.trans hm
  have hchange : ∀ cache, performAll store [load] { o with cache } =
      .change { o with cache } (Instance.load store selected { o with cache }) := by
    intro cache
    rw [performAll_singleton, hl.perform store cache]
  rw [apply_of_regular hgranted (transition_regular hr m hgranted)]
  rcases retrieve_onFields hl.isLoad hp hd hn m hm with hf | hf
  · rw [hf]
    exact ⟨o.cache.saved, congrArg (Outcome.andThen · _) (hchange o.cache)⟩
  · rw [hf]
    exact ⟨some o.cache.slots, congrArg (Outcome.andThen · _) (hchange o.cache.save)⟩

private theorem apply_retrieve_new (hn : o.state = .persistentNew)
    (ht : transition tx o.schema.identity r o.state = Transition.retrieve tx load o.state) :
    o.apply tx store r = .done o o.state := by
  refine apply_of_idle (m := ⟨[], o.state⟩) (ht.trans ?_) rfl rfl
  rw [hn]
  rfl

/-- A retrieve succeeds if it is not refused and finds the row where it needs it, and then it fills
in what was missing. -/
theorem apply_retrieve (tx : Transaction) (store : Store) (hs : o.Sized) (hc : o.Complete)
    (hp : o.state.isPersistent) (hd : o.state.isDeleted = false)
    (hl : o.Loads selected selection load) (hr : r ≠ .begin)
    (ht : transition tx o.schema.identity r o.state = Transition.retrieve tx load o.state) :
    ((∃ s, (o.apply tx store r).answer = .ok s) ↔
      (o.state = .hollow → tx.permitsRead = true) ∧
        ((store.row? o.id).isSome = true ∨ ∀ n ∈ selection, o.cache.isLoaded n = true)) ∧
    ∀ s, (o.apply tx store r).answer = .ok s →
      o.cache.FilledFrom (store.row? o.id) selection (o.apply tx store r).after.cache := by
  by_cases hn : o.state = .persistentNew
  · have hall : ∀ n ∈ selection, o.cache.isLoaded n = true := fun n hmem =>
      (hc.loaded (by rw [hn]; rfl)).isLoaded (hs.slots ▸ hl.picks.declared n hmem)
    rw [apply_retrieve_new hn ht]
    refine ⟨⟨fun _ => ⟨fun hh => ?_, .inr hall⟩, fun _ => ⟨_, rfl⟩⟩, fun _ _ => .of_loaded hall⟩
    rw [hn] at hh
    cases hh
  by_cases hg : o.state = .hollow → tx.permitsRead = true
  · obtain ⟨m, hm⟩ : ∃ m, Transition.retrieve tx load o.state = .ok m :=
      retrieve_granted_iff.mpr hg
    have hnext : m.next ≠ .transient := by
      intro ht
      have hper := (retrieve_next m hm).1
      rw [ht, hp] at hper
      cases hper
    obtain ⟨saved, happly⟩ := apply_retrieve_eq hp hd hn hl ht hm hr store
    obtain ⟨hok, hfilled⟩ := load_fills store saved (hs.slots.symm ▸ hl.picks)
    rw [happly, and_iff_right hg, ← hok]
    cases hload : Instance.load store selected { o with cache := ⟨o.cache.slots, saved⟩ } with
    | error f => simp [Outcome.change, Outcome.andThen, Outcome.failed]
    | ok a =>
      refine ⟨⟨fun _ => ⟨a, rfl⟩, fun _ => ⟨m.next, rfl⟩⟩, fun _ _ => ?_⟩
      change FilledFrom _ _ _ (a.enter m.next).cache
      rw [enter_cache hnext]
      exact hfilled a hload
  · have hrefused : ¬ ∃ s, (o.apply tx store r).answer = .ok s := by
      rintro ⟨s, hs⟩
      obtain ⟨m, hm, _⟩ := apply_next hr hs
      exact hg (retrieve_granted_iff.mp ⟨m, ht.symm.trans hm⟩)
    refine ⟨⟨fun h => absurd h hrefused, fun h => absurd h.1 hg⟩, fun s hs => ?_⟩
    exact absurd ⟨s, hs⟩ hrefused

/-- The fields that a call retrieves, if it is one that retrieves. -/
def Call.retrieves (o : Instance) : Call → Option (List Nat)
  | .retrieve true => some (o.schema.planFields o.plan)
  | .retrieve false => some (List.range o.schema.fieldCount)
  | .retrieveWith plan => some (o.schema.planFields plan)
  | _ => none

private theorem Call.retrieves_apply {c : Call} (h : c.retrieves o = some selection) :
    c.isOrdinary = true ∧ ∃ r load selected, r ≠ .begin ∧ o.Loads selected selection load ∧
      (∀ tx, transition tx o.schema.identity r o.state = Transition.retrieve tx load o.state) ∧
      ∀ tx store,
        o.call tx c store = ((o.apply tx store r).map Answer.state).within (store, ·) := by
  cases c with
  | retrieve fetchPlanOnly =>
    cases fetchPlanOnly <;> cases h
    · exact ⟨rfl, .retrieve false, _, _, by simp, .all o, fun _ => rfl, fun _ _ => rfl⟩
    · exact ⟨rfl, .retrieve true, _, _, by simp, .fetchPlan o, fun _ => rfl, fun _ _ => rfl⟩
  | retrieveWith plan =>
    cases h
    exact ⟨rfl, .retrieveWith plan, _, _, by simp, .plan o plan, fun _ => rfl, fun _ _ => rfl⟩
  | _ => cases h

end Instance

open Instance

/-- A retrieve is complete and destroys nothing. It is answered exactly if a hollow instance may be
read now and there is a row where one is needed. Then all that it selects is loaded, what was loaded
before is as it was, changes included, and the store is not touched. -/
theorem retrieve_completes {w : World} (h : Reached ordinary w) {id : ObjectId} {o : Instance}
    (ho : w.session.object id = .ok o) (hp : o.state.isPersistent = true)
    (hd : o.state.isDeleted = false) {c : Instance.Call} {selection : List Nat}
    (hc : c.retrieves o = some selection) :
    ((∃ a, (w.call (.object id c)).answer = .ok a) ↔
      (o.state = .hollow → w.session.tx.permitsRead = true) ∧
        ((w.store.row? id).isSome = true ∨ ∀ n ∈ selection, o.cache.isLoaded n = true)) ∧
    ∀ a, (w.call (.object id c)).answer = .ok a →
      (w.call (.object id c)).after.store = w.store ∧
      ∃ o', (w.call (.object id c)).after.session.object id = .ok o' ∧
        o.cache.FilledFrom (w.store.row? id) selection o'.cache := by
  obtain ⟨hmem, rfl⟩ := Session.object_eq_ok ho
  have hsized := h.sized hmem
  have hcomplete := h.complete hmem
  obtain ⟨hord, r, load, selected, hr, hl, ht, hcall⟩ := Call.retrieves_apply hc
  obtain ⟨hok, hfilled⟩ := apply_retrieve w.session.tx w.store hsized hcomplete hp hd hl hr
    (ht w.session.tx)
  obtain ⟨hanswer, _, hafter⟩ := World.object_of_call hord ho
  have hstore : (w.call (.object o.id c)).after.store = w.store := by
    rw [World.call, World.onObject, ho]
    change (o.call w.session.tx c w.store).after.1 = w.store
    rw [hcall]
    rfl
  rw [hcall] at hanswer hafter
  constructor
  · rw [← hok, hanswer]
    constructor
    · rintro ⟨a, ha⟩
      obtain ⟨s, hs, _⟩ := Outcome.ok_of_map ha
      exact ⟨s, hs⟩
    · rintro ⟨s, hs⟩
      exact ⟨.state s, congrArg (Except.map Answer.state) hs⟩
  · intro a ha
    obtain ⟨s, hs, _⟩ := Outcome.ok_of_map (hanswer.symm.trans ha)
    exact ⟨hstore, _, hafter, hfilled s hs⟩

def renamed : World :=
  (Sample.run .standard
    [.begin, .persist Scenario.sampleSchema (Scenario.sampleValues 1), .commit, .begin,
      .object Sample.first (.write (.name "name") (.text "Ann"))]).next
    (.foreign ⟨[(Sample.first, [.integer 1, .text "Bob", .text "bob@example.com"])]⟩)

/-- The name of a person was changed, and nothing else is loaded but the key, while others changed
the row. -/
theorem retrieve_completes_renamed :
    (∃ a, (renamed.call (.object Sample.first (.retrieve false))).answer = .ok a) ∧
      ∃ o', (renamed.call (.object Sample.first (.retrieve false))).after.session.object
          Sample.first = .ok o' ∧
        o'.cache.slot? 1 = some (.written (.text "Ann")) ∧
        o'.cache.slot? 2 = some (.clean (.text "bob@example.com")) ∧
        o'.cache.slot? 3 = some (.clean .null) := by
  have hreached : Reached ordinary renamed :=
    (Sample.reached_run (by decide)).step (e := .foreign _) rfl
  obtain ⟨o, ho⟩ : ∃ o, renamed.session.object Sample.first = .ok o := ⟨_, rfl⟩
  obtain ⟨hok, hcomplete⟩ := retrieve_completes (c := .retrieve false) hreached ho
    (by cases ho; rfl) (by cases ho; rfl) rfl
  have ha : ∃ a, (renamed.call (.object Sample.first (.retrieve false))).answer = .ok a :=
    hok.mpr ⟨fun _ => rfl, .inl rfl⟩
  obtain ⟨a, ha⟩ := ha
  obtain ⟨_, o', ho', hfilled⟩ := hcomplete a ha
  cases ho
  have hfresh : ∀ n ∈ [2, 3], ∃ row, renamed.store.row? Sample.first = some row ∧
      o'.cache.slot? n = some (.clean (row.entry n)) := by
    intro n hn
    refine hfilled.fresh n ?_ (hfilled.loaded n ?_) <;> revert n <;> decide
  refine ⟨⟨a, ha⟩, o', ho', hfilled.kept 1 rfl, ?_, ?_⟩
  · obtain ⟨row, hrow, hslot⟩ := hfresh 2 (by decide)
    cases hrow
    exact hslot
  · obtain ⟨row, hrow, hslot⟩ := hfresh 3 (by decide)
    cases hrow
    exact hslot

end Lifecycle
