import Lifecycle.Proofs.Cached

/-! Where a value that is read comes from. A field that is missing is loaded, unless the instance
has been let go: then nothing is loaded any more, and what is read is whatever stands in its place.
-/
namespace Lifecycle

namespace Instance
variable {tx : Transaction} {store : Store} {o o' : Instance} {isLoaded : Bool} {n : Nat}
  {v : Value}

private theorem onFields_isLoaded {cache : Cache} {m : Move}
    (hm : transition tx o.schema.identity (.readField isLoaded) o.state = .ok m)
    (hp : performAll store m.onFields o = .done { o with cache } ()) (n : Nat) :
    cache.isLoaded n = o.cache.isLoaded n := by
  rcases readField_onFields m hm with hf | hf
  · rw [hf] at hp
    have hcache : o.cache = cache := congrArg (·.after.cache) hp
    rw [hcache]
  · rw [hf] at hp
    change performAll store [.refreshLoadedFields] { o with cache := o.cache.save } = _ at hp
    rcases load_cases (perform_of_singleton hp) with ⟨_, heq⟩ | ⟨row, _, heq⟩
    · rw [show cache = o.cache.save from congrArg (·.cache) heq]
      rfl
    · rw [show cache = o.cache.save.load (fun _ s => s.loaded) row from congrArg (·.cache) heq]
      refine (Cache.isLoaded_load _ _ row n).trans ?_
      simp only [Bool.or_self]
      rfl

private theorem apply_readField {s : State}
    (h : o.apply tx store (.readField isLoaded) = .done o' s) :
    o'.connected = o.connected ∧ o'.state.isPersistent = o.state.isPersistent ∧
      ∀ n, o'.cache.isLoaded n = o.cache.isLoaded n := by
  rcases apply_cases (r := .readField isLoaded) tx store o (by simp) with
    ⟨f, ha⟩ | ⟨m, cache, hm, _, ⟨f, _, ha⟩ | ⟨hp, ha⟩⟩
  · rw [ha] at h
    cases h
  · rw [ha] at h
    cases h
  · rw [ha] at h
    cases h
    obtain ⟨hpersistent, htransient, _⟩ := readField_next m hm
    obtain ⟨hconnected, hcache⟩ := enter_kept (o := { o with cache }) htransient
    rw [hconnected, hcache, enter_state]
    exact ⟨rfl, hpersistent, onFields_isLoaded hm hp⟩

private theorem supply_cases (hn : n < o.cache.size) (h : o.supply store n = .done o' ()) :
    (o' = o ∧ ¬ (o.cache.isLoaded n = false ∧ o.connected = true ∧ o.state.isPersistent = true)) ∨
      o.connected = true ∧ o'.cache.isLoaded n = true ∧
        ∃ row, store.row? o.id = some row ∧ o'.cache.value n = row.entry n := by
  -- A field that is missing is loaded if the instance is managed and stands for a row.
  rw [supply] at h
  split at h
  · next hc =>
    cases hl : o.load store (fun m _ => m = n) with
    | error f =>
      rw [hl] at h
      cases h
    | ok a =>
      rw [hl] at h
      cases h
      have hslot : o.cache.slot? n = some o.cache.slots[n] := List.getElem?_eq_getElem hn
      refine .inr ⟨hc.2.1, load_isLoaded hl hslot (.inl (by simp)), ?_⟩
      rcases load_cases hl with ⟨hnone, _⟩ | ⟨row, hrow, rfl⟩
      · have hmem : n ∈ o.cache.fieldsWhere fun m _ => m = n :=
          Cache.mem_fieldsWhere.mpr ⟨_, hslot, by simp⟩
        rw [hnone] at hmem
        cases hmem
      · refine ⟨row, hrow, ?_⟩
        simp [Cache.value, Cache.load, hslot, Slot.clean, Row.entry]
  · next hc =>
    cases h
    refine .inl ⟨rfl, ?_⟩
    simpa using hc

/-- A read that succeeds was granted, has supplied the field, and answers it. -/
theorem readField_steps (h : o.readField tx store n = .done o' v) :
    n < o.schema.fieldCount ∧ v = o'.cache.value n ∧
      ∃ a s, o.apply tx store (.readField (o.cache.isLoaded n)) = .done a s ∧
        a.supply store n = .done o' () := by
  rw [readField, ifDeclared] at h
  split at h
  · next hn =>
    refine ⟨hn, ?_⟩
    cases ha : o.apply tx store (.readField (o.cache.isLoaded n)) with
    | mk a answer =>
      rw [ha] at h
      cases answer with
      | error f => cases h
      | ok s =>
        rw [Outcome.andThen] at h
        cases hb : a.supply store n with
        | mk b answer =>
          rw [hb] at h
          cases answer with
          | error f => cases h
          | ok u =>
            cases h
            exact ⟨rfl, a, s, rfl, hb⟩
  · cases h

private theorem isLoaded_of_not_persistent (hs : o.Sized) (hc : o.Complete)
    (hn : n < o.schema.fieldCount) (hp : o.state.isPersistent = false)
    (hm : ∃ m, transition tx o.schema.identity (.readField (o.cache.isLoaded n)) o.state = .ok m) :
    o.cache.isLoaded n = true := by
  -- Whoever stands for no row has every field that may be read.
  obtain ⟨_, _, hdetached, _⟩ := readField_granted_iff.mp hm
  by_cases hself : o.state.isSelfContained
  · exact (hc.loaded hself).isLoaded (hs.slots.symm ▸ hn)
  · refine hdetached ?_
    revert hp hself
    cases o.state <;> simp [State.isPersistent, State.isSelfContained]

/-- What a read answers is what stands in the cache afterwards. The field is loaded by then exactly
if it was loaded before or the instance is managed, and what was not loaded comes from the row. -/
theorem readField_value (hs : o.Sized) (hc : o.Complete)
    (h : o.readField tx store n = .done o' v) :
    v = o'.cache.value n ∧
      (o'.cache.isLoaded n = true ↔ o.connected = true ∨ o.cache.isLoaded n = true) ∧
      (o.cache.isLoaded n = false → o.connected = true →
        ∃ row, store.row? o.id = some row ∧ v = row.entry n) := by
  obtain ⟨hn, rfl, a, s, ha, hb⟩ := readField_steps h
  obtain ⟨hconnected, hpersistent, hloaded⟩ := apply_readField ha
  have hsized : a.Sized := by
    rw [← show (o.apply tx store _).after = a from congrArg (·.after) ha]
    exact Sized.keptByWork.applied hs
  have hframe : a.id = o.id ∧ a.schema = o.schema := by
    rw [← show (o.apply tx store _).after = a from congrArg (·.after) ha]
    exact apply_frame ..
  have hsize : n < a.cache.size := by
    rw [hsized.slots, hframe.2]
    exact hn
  refine ⟨rfl, ?_⟩
  rcases supply_cases hsize hb with ⟨rfl, hno⟩ | ⟨hcon, hl, row, hrow, hv⟩
  · have hpresent : o.connected = true → o.cache.isLoaded n = true := by
      intro hcon
      cases hl : o.cache.isLoaded n with
      | true => rfl
      | false =>
        cases hp : o.state.isPersistent with
        | true =>
          exact absurd ⟨(hloaded n).trans hl, hconnected.trans hcon, hpersistent.trans hp⟩ hno
        | false =>
          obtain ⟨m, hm, _⟩ := apply_next (by simp) (congrArg (·.answer) ha)
          exact hl.symm.trans (isLoaded_of_not_persistent hs hc hn hp ⟨m, hm⟩)
    rw [hloaded n]
    refine ⟨⟨.inr, (·.elim hpresent fun hl => hl)⟩, ?_⟩
    intro hl hcon
    rw [hpresent hcon] at hl
    cases hl
  · refine ⟨⟨fun _ => .inl (hconnected ▸ hcon), fun _ => hl⟩, fun _ _ => ?_⟩
    exact ⟨row, hframe.1 ▸ hrow, hv⟩

private theorem readField_id (tx : Transaction) (store : Store) (n : Nat) (o : Instance) :
    (o.readField tx store n).after.id = o.id := by
  refine readField_kept (P := fun a => a.id = o.id) (T := fun a => a.id = o.id) rfl
    (Outcome.meets_self.mpr (apply_frame ..).1) (fun _ ha => ha) ?_
  intro a a' _ hl ha
  rcases load_cases hl with ⟨_, rfl⟩ | ⟨_, _, rfl⟩ <;> exact ha

end Instance

open Instance

/-- To read a managed instance is one call of it, after its field was looked up. -/
theorem World.call_read {w : World} {id : ObjectId} {o : Instance}
    (ho : w.session.object id = .ok o) {field : FieldRef} {n : Nat}
    (hn : field.resolve o.schema = .ok n) :
    w.call (.object id (.read field)) =
      ((o.readField w.session.tx w.store n).map Answer.value).within fun o' =>
        { w with session := w.session.manage o' } := by
  change w.onObject id (.read field) = _
  rw [onObject, ho]
  change (((o.withField field fun n => o.readField w.session.tx w.store n).map
    Answer.value).within (w.store, ·)).within _ = _
  rw [withField, hn]
  rfl

/-- A read that is answered is one of the instance that is managed then. -/
theorem World.readField_of_answer {w : World} {id : ObjectId} {o : Instance}
    (ho : w.session.object id = .ok o) {field : FieldRef} {n : Nat}
    (hn : field.resolve o.schema = .ok n) {v : Value}
    (hok : (w.call (.object id (.read field))).answer = .ok (.value v)) :
    ∃ o', o.readField w.session.tx w.store n = .done o' v ∧
      (w.call (.object id (.read field))).after.session.object id = .ok o' := by
  have hid := (readField_id w.session.tx w.store n o).trans (Session.object_eq_ok ho).2
  rw [call_read ho hn] at hok ⊢
  obtain ⟨u, hu, heq⟩ := Outcome.ok_of_map hok
  cases heq
  cases hr : o.readField w.session.tx w.store n with
  | mk o' answer =>
    rw [hr] at hu hid
    cases hu
    refine ⟨o', rfl, ?_⟩
    rw [← show o'.id = id from hid]
    exact Session.object_manage w.session o'

/-- What a read answers is the value in the cache afterwards. The field is loaded then if and only
if it was loaded before or the instance is managed, and of a managed instance a field that was not
loaded is answered from its row. -/
theorem read_answer {w : World} (h : Reached ordinary w) {id : ObjectId} {o : Instance}
    (ho : w.session.object id = .ok o) {field : FieldRef} {n : Nat}
    (hn : field.resolve o.schema = .ok n) {v : Value}
    (hok : (w.call (.object id (.read field))).answer = .ok (.value v)) :
    ∃ o', (w.call (.object id (.read field))).after.session.object id = .ok o' ∧
      v = o'.cache.value n ∧
      (o'.cache.isLoaded n = true ↔ o.connected = true ∨ o.cache.isLoaded n = true) ∧
      (o.cache.isLoaded n = false → o.connected = true →
        ∃ row, w.store.row? id = some row ∧ v = row.entry n) := by
  obtain ⟨hmem, hid⟩ := Session.object_eq_ok ho
  have hsized := h.sized hmem
  have hcomplete := h.complete hmem
  obtain ⟨o', hread, ho'⟩ := World.readField_of_answer ho hn hok
  refine ⟨o', ho', ?_⟩
  rw [← hid]
  exact readField_value hsized hcomplete hread

def reopening : List Session.Call :=
  [.begin, .persist Sample.account [.text "A-1", .integer 10], .commit, .begin]

def reopened : World :=
  Sample.run .standard reopening

def reopenedInstance : Instance where
  id := Sample.first
  schema := Sample.account
  plan := .standard
  cache := ⟨[.clean (.text "A-1"), .unloaded], none⟩
  state := .hollow
  enlisted := false
  connected := true

/-- An instance is stored, and read in the next transaction. -/
theorem read_answer_reopened :
    reopened.session.object Sample.first = .ok reopenedInstance ∧
      ∃ o', (reopened.call (.object Sample.first (.read (.name "balance")))).after.session.object
          Sample.first = .ok o' ∧
        Value.integer 10 = o'.cache.value 1 ∧
        (o'.cache.isLoaded 1 = true ↔
          reopenedInstance.connected = true ∨ reopenedInstance.cache.isLoaded 1 = true) ∧
        ∃ row, reopened.store.row? Sample.first = some row ∧ Value.integer 10 = row.entry 1 := by
  have ho : reopened.session.object Sample.first = .ok reopenedInstance := rfl
  have hn : (FieldRef.name "balance").resolve reopenedInstance.schema = .ok 1 := rfl
  obtain ⟨o', ho', hv, hl, hrow⟩ := read_answer (Sample.reached_run (by decide)) ho hn rfl
  exact ⟨ho, o', ho', hv, hl, hrow rfl rfl⟩

def revived : World :=
  Sample.run .standard
    [.begin, .persist Sample.account [.text "A-1", .integer 10], .rollback, .begin,
      .object Sample.first .makePersistent, .commit, .begin]

/-- A read may answer what stands in the place of a field that was never loaded: nobody manages the
instance any more, although it has a row again. -/
theorem read_of_unloaded :
    ¬ ∀ (w : World) (id : ObjectId) (o : Instance) (field : FieldRef) (n : Nat) (v : Value),
      Reached ordinary w → w.session.object id = .ok o → field.resolve o.schema = .ok n →
      (w.call (.object id (.read field))).answer = .ok (.value v) →
      ∃ o', (w.call (.object id (.read field))).after.session.object id = .ok o' ∧
        v = o'.cache.value n ∧ o'.cache.isLoaded n = true := by
  intro h
  obtain ⟨o', ho', _, hl⟩ := h revived Sample.first _ (.name "balance") 1 .null
    (Sample.reached_run (by decide)) rfl rfl rfl
  cases ho'
  cases hl

end Lifecycle
