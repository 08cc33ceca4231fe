import Lifecycle.Proofs.Reading
import Lifecycle.Proofs.Refreshing

/-! What hollow instances hold. They are entered with nothing but the primary key, and only one
thing is ever loaded into an instance that stays hollow: a refresh loads its fetch plan. -/
namespace Lifecycle

namespace Instance
variable {tx : Transaction} {store : Store} {r : Request} {o o' : Instance}

def HoldsOnlyKey (o : Instance) : Prop :=
  ∀ n, o.cache.isLoaded n = true → o.schema.isPrimaryKey n = true

/-- A refresh would load a field into the instance while it stays hollow: there is a row, and the
fetch plan goes beyond the key. -/
def FilledByRefresh (store : Store) (o : Instance) : Prop :=
  o.state = .hollow ∧ (store.row? o.id).isSome = true ∧
    ∃ n ∈ o.schema.planFields o.plan, o.schema.isPrimaryKey n = false

private theorem reload_isLoaded {n : Nat} (hs : o.Sized)
    (h : performAll store Effect.reload o = .done o' ()) :
    o'.cache.isLoaded n = true ↔ n ∈ o.schema.planFields o.plan ∧ (store.row? o.id).isSome := by
  by_cases hr : o.Reloads store
  · rw [performAll_reload hs.slots hr] at h
    cases h
    rw [reloaded, Cache.isLoaded_ofPlan]
    exact ⟨fun hn => ⟨hn, hr.resolve_right (List.ne_nil_of_mem hn)⟩, And.left⟩
  · rw [performAll_reload_missing hs.slots hr] at h
    cases h

private theorem holdsOnlyKey_iff_each :
    o.HoldsOnlyKey ↔ o.cache.Each fun n s => s.loaded = true → o.schema.isPrimaryKey n = true := by
  simp only [HoldsOnlyKey, Cache.isLoaded_eq_true, Cache.Each]
  grind

private theorem holdsOnlyKey_unload (o : Instance) (saved : Option (List Slot)) :
    HoldsOnlyKey { o with
      cache := ⟨(o.cache.unload fun n => !o.schema.isPrimaryKey n).slots, saved⟩ } := by
  intro n hn
  have hn' : (o.cache.unload fun n => !o.schema.isPrimaryKey n).isLoaded n = true := hn
  rw [Cache.isLoaded_unload, Bool.not_not, Bool.and_eq_true] at hn'
  exact hn'.1

private theorem HoldsOnlyKey.of_missing {es : List Effect} (h : o.HoldsOnlyKey)
    (hrow : store.row? o.id = none) (he : ∀ e ∈ es, e.isCrossing = false)
    (hs : .restoreFields ∉ es) : (performAll store es o).after.HoldsOnlyKey := by
  -- Where there is no row, no field is loaded that was not loaded before.
  rw [holdsOnlyKey_iff_each, performAll_frame store o he]
  refine performAll_each ⟨?_, ?_, ?_⟩ he hs (holdsOnlyKey_iff_each.mp h)
  · intro n hl
    cases hl
  · intro n s _ hl
    cases hl
  · intro n row hr
    rw [hrow] at hr
    cases hr

private def TrulyHollow (o : Instance) : Prop :=
  o.state = .hollow → o.HoldsOnlyKey

namespace TrulyHollow

private theorem failed {m : Move} {cache : Cache} {f : Failure} (h : o.TrulyHollow)
    (hm : transition tx o.schema.identity r o.state = .ok m)
    (hp : performAll store m.onFields o = .failed { o with cache } f) :
    TrulyHollow { o with cache } := by
  intro hs
  have hhollow : o.state = .hollow := hs
  -- only a load can have failed, and then there was no row to load from
  have hfailed : (performAll store m.onFields o).answer = .error f := by rw [hp]; rfl
  have hrow := (performAll_error hfailed).2.1
  have hrestore : .restoreFields ∉ m.onFields := by
    intro he
    refine restoreFields_only_by_rollback ?_ m hm (Move.mem_effects_of_mem_onFields he)
    rintro rfl
    rw [hhollow] at hm
    cases hm
  have hkey := (h hhollow).of_missing hrow (fun _ he => Move.isCrossing_of_mem_onFields he) hrestore
  rw [hp] at hkey
  exact hkey

private theorem done {m : Move} {cache : Cache}
    (hr : r = .refresh → o.Sized ∧ ¬ o.FilledByRefresh store) (h : o.TrulyHollow)
    (hm : transition tx o.schema.identity r o.state = .ok m)
    (hp : performAll store m.onFields o = .done { o with cache } ()) :
    (enter m.next { o with cache }).TrulyHollow := by
  intro hs
  have hnext : m.next = .hollow := (enter_state m.next).symm.trans hs
  rw [HoldsOnlyKey, enter_schema, enter_cache (by simp [hnext])]
  rcases next_hollow m hm hnext with hf | hf | ⟨hhollow, hf | rfl⟩
  · rw [hf] at hp
    cases hp
    exact holdsOnlyKey_unload o _
  · rw [hf] at hp
    cases hp
    exact holdsOnlyKey_unload o _
  · rw [hf] at hp
    have hsame : o.cache = cache := congrArg (·.after.cache) hp
    exact hsame ▸ h hhollow
  · have hreload : m.onFields = Effect.reload := by
      rw [hhollow] at hm
      cases hm
      rfl
    rw [hreload] at hp
    obtain ⟨hsized, hno⟩ := hr rfl
    intro n hn
    obtain ⟨hplan, hrow⟩ := (reload_isLoaded hsized hp).mp hn
    cases hk : o.schema.isPrimaryKey n with
    | true => rfl
    | false => exact absurd ⟨hhollow, hrow, n, hplan, hk⟩ hno

private theorem of_not_hollow (h : o.state ≠ .hollow) : o.TrulyHollow :=
  fun hs => absurd hs h

private theorem apply (hr : r = .refresh → o.Sized ∧ ¬ o.FilledByRefresh store)
    (h : o.TrulyHollow) : (o.apply tx store r).after.TrulyHollow := by
  by_cases hb : r = .begin
  · subst hb
    rw [apply_begin]
    split
    · next hs => exact of_not_hollow (by simp [Outcome.done, hs])
    · exact h
  rcases apply_cases tx store o hb with ⟨f, ha⟩ | ⟨m, cache, hm, _, ⟨f, hp, ha⟩ | ⟨hp, ha⟩⟩
  · rw [ha]
    exact h
  · rw [ha]
    exact h.failed hm hp
  · rw [ha]
    exact h.done hr hm hp

private theorem found {id : ObjectId} {schema : Schema}
    (h : Instance.hollow store id schema = .ok o) : o.TrulyHollow := by
  obtain ⟨row, _, rfl⟩ := hollow_eq_ok h
  intro _ n hn
  rw [Cache.isLoaded_load] at hn
  obtain ⟨s, hs, hl⟩ := (Option.any_eq_true _ _).mp hn
  simp only [Cache.slot?, Cache.unloaded] at hs
  rw [List.getElem?_replicate] at hs
  split at hs <;> cases hs
  simpa [Slot.unloaded] using hl

private theorem flush (h : o.TrulyHollow) : (o.flush store).after.2.TrulyHollow := by
  refine flush_kept (P := fun _ a => a.TrulyHollow) h ?_
  intro _ _ _ hs n hn
  refine h hs n ?_
  rw [← hn]
  simp [Cache.isLoaded, Cache.clearDirty, Cache.slot?, Option.any_map]

private theorem readField {n : Nat} (h : o.TrulyHollow) :
    (o.readField tx store n).after.TrulyHollow := by
  refine readField_kept (P := TrulyHollow) (T := fun a => a.state ≠ .hollow) h ?_
    (fun _ => of_not_hollow) ?_
  · have ha : (o.apply tx store (.readField (o.cache.isLoaded n))).after.TrulyHollow :=
      h.apply (by simp)
    cases happ : o.apply tx store (.readField (o.cache.isLoaded n)) with
    | mk a answer =>
      rw [happ] at ha
      cases answer with
      | error f => exact ha
      | ok s =>
        obtain ⟨m, hm, hnext⟩ := apply_done (by simp) happ
        change a.state ≠ .hollow
        rw [hnext]
        exact (readField_next m hm).2.2
  · intro a a' _ hl ha
    refine of_not_hollow ?_
    rcases load_cases hl with ⟨_, rfl⟩ | ⟨_, _, rfl⟩ <;> exact ha

private theorem writeField {n : Nat} {v : Value} (h : o.TrulyHollow) :
    (o.writeField tx store n v).after.TrulyHollow := by
  refine writeField_kept (P := TrulyHollow) h (h.apply (by simp)) ?_
  intro _ o' s happ _
  obtain ⟨m, hm, hnext⟩ := apply_done (by simp) happ
  have hchanged : m.next.isUnchanged = false := next_of_writeField m hm
  refine of_not_hollow fun hs => ?_
  rw [← hnext, show o'.state = _ from hs] at hchanged
  cases hchanged

private theorem call {c : Call} (hc : c.isOrdinary)
    (hr : c = .refresh → o.Sized ∧ ¬ o.FilledByRefresh store) (h : o.TrulyHollow) :
    (o.call tx c store).after.2.TrulyHollow := by
  cases c with
  | refresh => exact h.apply fun _ => hr rfl
  | read field => exact withField_kept (P := TrulyHollow) h fun _ _ => h.readField
  | _ =>
    refine call_kept (P := fun _ a => a.TrulyHollow) hc ?_ (by simp) (fun _ _ ha => ha.writeField)
      (fun _ ha => ha.flush) ?_ (fun _ ha => ha) h
    · intro a r _ _ _ hm ha
      exact ha.apply fun hr => by cases hm.2 hr
    · intro ha
      exact detach_kept (P := fun _ a => a.TrulyHollow) (T := fun _ a => a.TrulyHollow) ha
        (fun _ => Outcome.meets_self.mpr ha.flush) (fun _ => ha) fun _ _ ht => ht.apply (by simp)

end TrulyHollow

private theorem FilledByRefresh.apply (hs : o.Sized) (h : o.FilledByRefresh store) :
    (o.apply tx store .refresh).after.state = .hollow ∧
      ¬ (o.apply tx store .refresh).after.HoldsOnlyKey := by
  obtain ⟨hhollow, hrow, n, hplan, hk⟩ := h
  rw [apply_refresh tx hs.slots (by rw [hhollow]; rfl) (.inl hrow), hhollow]
  refine ⟨enter_state _, fun hkey => ?_⟩
  have hloaded : (o.reloaded store).cache.isLoaded n = true := Cache.isLoaded_ofPlan.mpr hplan
  have hkey' := hkey n
  simp only [Outcome.done, State.afterRefresh] at hkey'
  rw [enter_cache (by simp), enter_schema] at hkey'
  rw [show o.schema.isPrimaryKey n = true from hkey' hloaded] at hk
  cases hk

end Instance

open Instance

namespace World

def HollowsAreHollow (w : World) : Prop :=
  ∀ o ∈ w.session.objects, o.state = .hollow → o.HoldsOnlyKey

/-- The event refreshes a hollow instance and thereby fills it. -/
def FillsHollow (w : World) (e : Event) : Prop :=
  ∃ id o, e = .call (.object id .refresh) ∧ w.session.object id = .ok o ∧ o.FilledByRefresh w.store

end World

private theorem TrulyHollow.kept :
    Kept (fun w e => e.isOrdinary ∧ ¬ w.FillsHollow e) (fun _ _ o => o.Sized)
      fun _ _ => TrulyHollow where
  ordinary hp := hp.1
  framed _ _ _ _ _ h := h
  foreign _ h := h
  persisted _ hc := by
    rw [create_eq_ok hc]
    exact TrulyHollow.apply (by simp) (TrulyHollow.of_not_hollow (by simp))
  found := TrulyHollow.found
  called hp ho hs h := h.call hp.1 fun hc => ⟨hs, fun hf => hp.2 ⟨_, _, by rw [hc], ho, hf⟩⟩
  evicted h := h.apply (by simp)
  begun _ h := h.apply (by simp)
  committed _ ha h := Session.commit_keeps (P := fun _ => TrulyHollow) (fun _ _ _ _ h => h) ha
    (h.mono fun _ _ ho => ho.2) (fun _ _ ho => ho.flush) fun _ _ _ hr ho => ho.apply fun h => by
      rcases hr with rfl | rfl | rfl <;> cases h
  rolledBack _ ha h := Session.rollback_keeps (P := fun _ => TrulyHollow) (fun _ _ _ _ h => h) ha
    (h.mono fun _ _ ho => ho.2) fun _ _ ho => ho.apply (by simp)

private theorem filled_of_next {w : World} {e : Event} (h : Reached ordinary w)
    (hf : w.FillsHollow e) : ¬ (w.next e).HollowsAreHollow := by
  obtain ⟨id, o, rfl, ho, hfilled⟩ := hf
  obtain ⟨hmem, rfl⟩ := Session.object_eq_ok ho
  have hs := h.sized hmem
  have hafter : (o.apply w.session.tx w.store .refresh).after.state = .hollow ∧
      ¬ (o.apply w.session.tx w.store .refresh).after.HoldsOnlyKey := hfilled.apply hs
  intro hall
  refine hafter.2 (hall _ ?_ hafter.1)
  change _ ∈ (w.onObject o.id .refresh).after.session.objects
  rw [World.onObject, ho]
  exact (Session.object_eq_ok (Session.object_manage w.session _)).1

private theorem read_of_onlyKey {w : World} (h : Reached ordinary w) {id : ObjectId} {o : Instance}
    (ho : w.session.object id = .ok o) (hkey : o.HoldsOnlyKey) (hcon : o.connected = true)
    {field : FieldRef} {n : Nat} (hn : field.resolve o.schema = .ok n)
    (hk : o.schema.isPrimaryKey n = false) {v : Value}
    (hok : (w.call (.object id (.read field))).answer = .ok (.value v)) :
    ∃ row, w.store.row? id = some row ∧ v = row.entry n := by
  obtain ⟨hmem, rfl⟩ := Session.object_eq_ok ho
  have hs := h.sized hmem
  have hc := h.complete hmem
  obtain ⟨o', hread, _⟩ := World.readField_of_answer ho hn hok
  refine (readField_value hs hc hread).2.2 ?_ hcon
  cases hl : o.cache.isLoaded n with
  | false => rfl
  | true =>
    rw [hkey n hl] at hk
    cases hk

/-- The hollow instances of a run hold only their keys if and only if none of them is refreshed
while there is a row for it and its fetch plan goes beyond the key. Of a managed instance that holds
only its key, any other field is read from the row as it is then. -/
theorem hollowsAreHollow_iff_neverFilled {store : Store} {ids : IdSource} {options : Options}
    {events : List Event} (hord : ∀ e ∈ events, e.isOrdinary) :
    ((∀ past, past <+: events → ((World.fresh store ids options).after past).HollowsAreHollow) ↔
      ∀ past e, past ++ [e] <+: events →
        ¬ ((World.fresh store ids options).after past).FillsHollow e) ∧
    ∀ (id : ObjectId) (o : Instance) (field : FieldRef) (n : Nat) (v : Value),
      ((World.fresh store ids options).after events).session.object id = .ok o →
      o.HoldsOnlyKey → o.connected = true →
      field.resolve o.schema = .ok n → o.schema.isPrimaryKey n = false →
      (((World.fresh store ids options).after events).call (.object id (.read field))).answer =
        .ok (.value v) →
      ∃ row, ((World.fresh store ids options).after events).store.row? id = some row ∧
        v = row.entry n := by
  refine ⟨⟨?_, ?_⟩, ?_⟩
  · intro h past e hpre hf
    have hreached : Reached ordinary ((World.fresh store ids options).after past) := by
      refine Reached.of_ordinary fun e he => hord e ?_
      exact ((List.prefix_append past _).trans hpre).subset he
    have hnext := h _ hpre
    rw [World.after_append] at hnext
    exact filled_of_next hreached hf hnext
  · intro h past hpre
    have hreached : Reached (fun w e => e.isOrdinary ∧ ¬ w.FillsHollow e)
        ((World.fresh store ids options).after past) := by
      refine Reached.after (.fresh store ids options) fun past' e hpre' => ?_
      exact ⟨hord e ((hpre'.trans hpre).subset (by simp)), h past' e (hpre'.trans hpre)⟩
    exact (TrulyHollow.kept.everywhere (fun hv => (Sized.keptByWork.everywhere
      (hv.mono fun _ _ _ hp => hp.1)).each) hreached).each
  · intro id o field n v ho hkey hcon hn hk hok
    exact read_of_onlyKey (Reached.of_ordinary hord) ho hkey hcon hn hk hok

/-- An instance is stored, and the next transaction begins. -/
theorem hollowsAreHollow_iff_reopening :
    (∀ e ∈ reopening.map Event.call, e.isOrdinary) ∧
      ((∀ past, past <+: reopening.map Event.call →
          ((World.fresh .empty .counting .standard).after past).HollowsAreHollow) ↔
        ∀ past e, past ++ [e] <+: reopening.map Event.call →
          ¬ ((World.fresh .empty .counting .standard).after past).FillsHollow e) ∧
      reopened.session.object Sample.first = .ok reopenedInstance ∧
      ∃ row, reopened.store.row? Sample.first = some row ∧ Value.integer 10 = row.entry 1 := by
  have hord : ∀ e ∈ reopening.map Event.call, e.isOrdinary := by decide
  have hkey : reopenedInstance.HoldsOnlyKey := by
    rintro (_ | _ | n) hn
    · rfl
    all_goals cases hn
  obtain ⟨hiff, hread⟩ := @hollowsAreHollow_iff_neverFilled .empty .counting .standard _ hord
  exact ⟨hord, hiff, rfl, hread Sample.first reopenedInstance (.name "balance") 1 _ rfl hkey rfl rfl
    rfl rfl⟩

def refreshed : World :=
  Sample.run .standard
    [.begin, .persist Sample.account [.text "A-1", .integer 10], .commit,
      .object Sample.first .refresh, .begin]

/-- A hollow instance may hold more than its key: what it was refreshed with in the last transaction
is there in the next one. -/
theorem hollow_holds_values : ¬ ∀ w : World, Reached ordinary w → w.HollowsAreHollow := by
  intro h
  have hkey := h refreshed (Sample.reached_run (by decide)) _ (List.Mem.head []) rfl 1 rfl
  cases hkey

end Lifecycle
