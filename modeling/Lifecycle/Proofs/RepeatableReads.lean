import Lifecycle.Proofs.Following
import Lifecycle.Proofs.Reading
import Lifecycle.Proofs.Refreshing

/-! Reads in a locking transaction. The first read of an instance that was cached before loads again
all that is loaded, so that nothing stale is answered. From then on a read answers what was found
first, whatever others do to the store, and a rollback can still give back the cache of before. -/
namespace Lifecycle

private theorem Transaction.active_of_isPessimisticActive {tx : Transaction}
    (h : tx.isPessimisticActive = true) : tx.active = true := by
  rw [isPessimisticActive, Bool.and_eq_true] at h
  exact h.1

namespace Cache
variable {c : Cache} {p q : Nat → Slot → Bool}

private theorem load_congr (row : Row) (h : ∀ n s, c.slot? n = some s → p n s = q n s) :
    c.load p row = c.load q row := by
  refine eq_of_slots (fun n => ?_) rfl
  rw [slot?_load, slot?_load]
  cases hn : c.slot? n with
  | none => rfl
  | some s => rw [Option.map_some, Option.map_some, h n s hn]

private theorem load_load (c : Cache) (p : Nat → Slot → Bool) (q : Nat → Bool) (row : Row) :
    (c.load p row).load (fun n _ => q n) row = c.load (fun n s => p n s || q n) row := by
  refine eq_of_slots (fun n => ?_) rfl
  simp only [slot?_load, Option.map_map]
  refine congrArg (Option.map · (c.slot? n)) (funext fun s => ?_)
  cases hp : p n s <;> simp [hp]

end Cache

namespace Instance
variable {tx : Transaction} {store : Store} {o a b : Instance} {n : Nat} {row : Row}

section First

private theorem apply_first (hs : o.state = .nontransactional)
    (hx : tx.isPessimisticActive = true) (store : Store) (isLoaded : Bool) :
    o.apply tx store (.readField isLoaded) =
      (Outcome.change { o with cache := o.cache.save }
        (Instance.load store (fun _ s => s.loaded) { o with cache := o.cache.save })).andThen
        fun o' _ => .done (o'.enter .persistentClean) .persistentClean := by
  have hactive := Transaction.active_of_isPessimisticActive hx
  have ht : transition tx o.schema.identity (.readField isLoaded) o.state =
      Move.enter [.saveFields, .refreshLoadedFields] o.state .persistentClean := by
    simp [hs, transition, Transition.readField, Transition.ifReadable, hx, Transaction.permitsRead,
      hactive]
  rw [apply_of_enter ht rfl (by rw [hs]; simp)]
  change (performAll store [.refreshLoadedFields] { o with cache := o.cache.save }).andThen _ = _
  rw [performAll_singleton]
  rfl

def readAnew (row : Row) (selected : Nat → Slot → Bool) (o : Instance) : Instance :=
  { o with
    cache := o.cache.save.load selected row
    state := .persistentClean
    enlisted := true }

def withLoaded (n m : Nat) (s : Slot) : Bool :=
  s.loaded || m = n

private theorem apply_first_of_row (hs : o.state = .nontransactional)
    (hx : tx.isPessimisticActive = true) (hrow : store.row? o.id = some row) (isLoaded : Bool) :
    o.apply tx store (.readField isLoaded) =
      .done (o.readAnew row fun _ s => s.loaded) .persistentClean := by
  rw [apply_first hs hx, load_of_some (o := { o with cache := o.cache.save }) hrow]
  simp [Outcome.change, Outcome.andThen, Outcome.done, enter, hs, State.isTransactional, readAnew]

private theorem supply_first (hc : o.connected = true) (hrow : store.row? o.id = some row) :
    (o.readAnew row fun _ s => s.loaded).supply store n =
      .done (o.readAnew row (withLoaded n)) () := by
  rw [supply]
  split
  · rw [load_of_some (o := o.readAnew row fun _ s => s.loaded) hrow]
    refine congrArg (Outcome.done · ()) ?_
    rw [readAnew, Cache.load_load]
    rfl
  · next hno =>
    -- the field was loaded before, and is so again
    have hloaded : (o.readAnew row fun _ s => s.loaded).cache.isLoaded n = true := by
      by_contra hl
      exact hno ⟨hl, hc, rfl⟩
    rw [readAnew, Cache.isLoaded_load] at hloaded
    refine congrArg (Outcome.done · ()) ?_
    rw [readAnew, readAnew]
    have hsame : ∀ m s, o.cache.save.slot? m = some s → s.loaded = withLoaded n m s := by
      intro m s hm
      rw [withLoaded]
      by_cases hmn : m = n
      · rw [← hmn, hm, Option.any_some, Bool.or_self] at hloaded
        simp [hloaded]
      · simp [hmn]
    rw [Cache.load_congr row hsame]

private theorem readField_first (hs : o.state = .nontransactional) (hc : o.connected = true)
    (hx : tx.isPessimisticActive = true) (hsized : o.Sized) (hn : n < o.schema.fieldCount)
    (hrow : store.row? o.id = some row) :
    o.readField tx store n = .done (o.readAnew row (withLoaded n)) (row.entry n) := by
  have hsize : n < o.cache.slots.length := by
    rw [show o.cache.slots.length = _ from hsized.slots]
    exact hn
  have hslot : o.cache.save.slot? n = some o.cache.slots[n] := List.getElem?_eq_getElem hsize
  have hvalue : (o.readAnew row (withLoaded n)).cache.value n = row.entry n := by
    rw [readAnew, Cache.value, Cache.slot?_load, hslot]
    simp [withLoaded, Slot.clean, Row.entry]
  rw [readField, ifDeclared, if_pos hn, apply_first_of_row hs hx hrow, Outcome.andThen_done,
    supply_first hc hrow, Outcome.andThen_done, hvalue]

private theorem row_of_readField_first (hs : o.state = .nontransactional) (hc : o.connected = true)
    (hx : tx.isPessimisticActive = true) (hsized : o.Sized) {v : Value}
    (h : o.readField tx store n = .done a v) : ∃ row, store.row? o.id = some row := by
  cases hl : o.cache.isLoaded n with
  | false =>
    have hcomplete : o.Complete := .of_not_selfContained (by rw [hs]; rfl)
    obtain ⟨row, hrow, _⟩ := (readField_value hsized hcomplete h).2.2 hl hc
    exact ⟨row, hrow⟩
  | true =>
    obtain ⟨_, _, b, s, happly, _⟩ := readField_steps h
    rw [apply_first hs hx] at happly
    obtain ⟨b, hb⟩ : ∃ b, Instance.load store (fun _ s => s.loaded)
        { o with cache := o.cache.save } = .ok b := by
      revert happly
      cases Instance.load store (fun _ s => s.loaded) { o with cache := o.cache.save } with
      | error f => simp [Outcome.change, Outcome.andThen, Outcome.failed, Outcome.done]
      | ok b => exact fun _ => ⟨b, rfl⟩
    rcases load_cases hb with ⟨hnone, _⟩ | ⟨row, hrow, _⟩
    · obtain ⟨s, hslot, hs⟩ := Cache.isLoaded_eq_true.mp hl
      have hmem : n ∈ o.cache.save.fieldsWhere fun _ s => s.loaded :=
        Cache.mem_fieldsWhere.mpr ⟨s, hslot, hs⟩
      rw [show o.cache.save.fieldsWhere _ = [] from hnone] at hmem
      cases hmem
    · exact ⟨row, hrow⟩

end First

section Again

/-- The instance was only read in the meantime: it is where it was, with its snapshot, and what was
loaded is as it was. -/
structure ReadSince (a b : Instance) : Prop where
  schema : b.schema = a.schema
  state : b.state = a.state
  enlisted : b.enlisted = a.enlisted
  saved : b.cache.saved = a.cache.saved
  loaded : ∀ n s, a.cache.slot? n = some s → s.loaded = true → b.cache.slot? n = some s

private theorem ReadSince.refl (a : Instance) : a.ReadSince a :=
  ⟨rfl, rfl, rfl, rfl, fun _ _ hs _ => hs⟩

private theorem ReadSince.trans (h : o.ReadSince a) (h' : a.ReadSince b) : o.ReadSince b where
  schema := h'.schema.trans h.schema
  state := h'.state.trans h.state
  enlisted := h'.enlisted.trans h.enlisted
  saved := h'.saved.trans h.saved
  loaded n s hs hl := h'.loaded n s (h.loaded n s hs hl) hl

private theorem apply_again (hs : o.state = .persistentClean) (ha : tx.active = true)
    (store : Store) (isLoaded : Bool) :
    o.apply tx store (.readField isLoaded) = .done o o.state := by
  refine apply_of_idle (m := ⟨[], o.state⟩) ?_ rfl rfl
  simp [hs, transition, Transition.readField, Transition.ifReadable, Transaction.permitsRead, ha,
    Move.stay]

private theorem ReadSince.of_read (hs : o.state = .persistentClean) (ha : tx.active = true)
    (store : Store) (field : FieldRef) :
    o.ReadSince (o.call tx (.read field) store).after.2 := by
  change o.ReadSince (o.withField field fun n => o.readField tx store n).after
  refine withField_kept (P := ReadSince o) (.refl o) fun n _ => ?_
  refine readField_kept (P := ReadSince o) (T := ReadSince o) (.refl o) ?_ (fun _ h => h) ?_
  · rw [apply_again hs ha]
    exact .refl o
  · intro b b' hmissing hl hb
    have hloaded : ∀ m s, o.cache.slot? m = some s → s.loaded = true →
        b'.cache.slot? m = some s := fun m s hm hs =>
      load_missing_spares hmissing hl (hb.loaded m s hm hs) hs
    rcases load_cases hl with ⟨_, rfl⟩ | ⟨_, _, rfl⟩
    · exact hb
    · exact ⟨hb.schema, hb.state, hb.enlisted, hb.saved, hloaded⟩

private theorem readField_loaded (hs : o.state = .persistentClean) (ha : tx.active = true)
    (hn : n < o.schema.fieldCount) (hl : o.cache.isLoaded n = true) (store : Store) :
    o.readField tx store n = .done o (o.cache.value n) := by
  have hsupply : o.supply store n = .done o () := if_neg (by simp [hl])
  rw [readField, ifDeclared, if_pos hn, apply_again hs ha, Outcome.andThen_done, hsupply,
    Outcome.andThen_done]

private theorem rollback_since {slots : List Slot} (hs : o.state = .persistentClean)
    (hr : tx.options.restoreValues = true) (hsaved : o.cache.saved = some slots) (store : Store) :
    (o.apply tx store .rollback).after.cache = ⟨slots, none⟩ := by
  rw [apply_rollback (by rw [hs]; rfl), if_pos hr, Outcome.done, enter_cache (by simp),
    Cache.restore, hsaved]
  rfl

end Again

end Instance

open Instance

def Event.OnlyReads (id : ObjectId) : Event → Prop
  | .foreign _ => True
  | .call (.object k c) => c.isOrdinary = true ∧ (k = id → ∃ field, c = .read field)
  | _ => False

namespace World
variable {w : World} {id : ObjectId} {o : Instance} {e : Event} {events : List Event}

private theorem next_reads (ha : w.session.tx.active = true) (ho : w.session.object id = .ok o)
    (hs : o.state = .persistentClean) (he : e.OnlyReads id) :
    e.isOrdinary = true ∧ (w.next e).session.tx = w.session.tx ∧
      ∃ o', (w.next e).session.object id = .ok o' ∧ o.ReadSince o' := by
  cases e with
  | foreign store => exact ⟨rfl, rfl, o, ho, .refl o⟩
  | call c =>
    cases c with
    | object k c =>
      obtain ⟨hord, hread⟩ := he
      refine ⟨hord, ?_⟩
      by_cases hk : k = id
      · obtain ⟨field, rfl⟩ := hread hk
        subst hk
        obtain ⟨_, htx, ho'⟩ := object_of_call (c := .read field) rfl ho
        exact ⟨htx, _, ho', .of_read hs ha w.store field⟩
      · obtain ⟨htx, hobject⟩ := object_of_other (w := w) hord hk
        exact ⟨htx, o, hobject.trans ho, .refl o⟩
    | _ => exact he.elim

/-- However often the instance is read. -/
theorem after_reads (h : Reached ordinary w) (ha : w.session.tx.active = true)
    (ho : w.session.object id = .ok o) (hs : o.state = .persistentClean)
    (hevents : ∀ e ∈ events, e.OnlyReads id) :
    Reached ordinary (w.after events) ∧ (w.after events).session.tx = w.session.tx ∧
      ∃ o', (w.after events).session.object id = .ok o' ∧ o.ReadSince o' := by
  induction events generalizing w o with
  | nil => exact ⟨h, rfl, o, ho, .refl o⟩
  | cons e rest ih =>
    simp only [List.forall_mem_cons] at hevents
    obtain ⟨hord, htx, a, hobject, hread⟩ := next_reads ha ho hs hevents.1
    obtain ⟨hreached, htx', o', ho', hrest⟩ := ih (h.step hord) (by rw [htx]; exact ha) hobject
      (hread.state.trans hs) hevents.2
    exact ⟨hreached, htx'.trans htx, o', ho', hread.trans hrest⟩

/-- Of the instance whatever is loaded is read again as it is now, as long as it is only read. -/
def Repeats (id : ObjectId) (w : World) : Prop :=
  ∀ o field n, w.session.object id = .ok o → field.resolve o.schema = .ok n →
    o.cache.isLoaded n = true → ∀ events, (∀ e ∈ events, e.OnlyReads id) →
      ((w.after events).call (.object id (.read field))).answer = .ok (.value (o.cache.value n))

private theorem repeats (h : Reached ordinary w) (ha : w.session.tx.active = true)
    (ho : w.session.object id = .ok o) (hs : o.state = .persistentClean) : w.Repeats id := by
  intro a field n hobject hn hl events hevents
  obtain rfl : a = o := Except.ok.inj (hobject.symm.trans ho)
  obtain ⟨hreached, htx, o', ho', hread⟩ := after_reads h ha ho hs hevents
  obtain ⟨s, hslot, hloaded⟩ := Cache.isLoaded_eq_true.mp hl
  have hslot' := hread.loaded n s hslot hloaded
  have hdeclared : n < o'.schema.fieldCount := by
    rw [← (hreached.sized (Session.object_eq_ok ho').1).slots]
    exact (List.getElem?_eq_some_iff.mp hslot').1
  rw [call_read ho' (by rw [hread.schema]; exact hn), readField_loaded (hread.state.trans hs)
    (by rw [htx]; exact ha) hdeclared (Cache.isLoaded_eq_true.mpr ⟨s, hslot', hloaded⟩),
    Cache.value, Cache.value, hslot, hslot']
  rfl

/-- A rollback succeeds, and gives the instance back with these fields. -/
def GivesBack (id : ObjectId) (slots : List Slot) (w : World) : Prop :=
  (∃ a, (w.call .rollback).answer = .ok a) ∧
    ∃ o, (w.call .rollback).after.session.object id = .ok o ∧ o.cache.slots = slots

private theorem givesBack {slots : List Slot} (h : Reached ordinary w)
    (ha : w.session.tx.active = true)
    (hr : w.session.tx.options.restoreValues = true) (ho : w.session.object id = .ok o)
    (hs : o.state = .persistentClean) (he : o.enlisted = true)
    (hsaved : o.cache.saved = some slots) : w.GivesBack id slots := by
  have hok := Session.rollback_ok (w := w.pair) ha h.enlistedExactly
  obtain ⟨store, hafter⟩ := h.rollback_object ha ho he
  exact ⟨⟨_, congrArg (Except.map Answer.cycle) hok⟩, _, hafter,
    congrArg Cache.slots (rollback_since hs hr hsaved store)⟩

end World

/-- What the first read of a field makes of an instance that was cached outside of transactions. It
takes part now, and whatever is loaded, that is what was cached and the field, is as in the row. -/
structure Instance.ReadFirst (n : Nat) (row : Row) (before after : Instance) : Prop where
  state : after.state = .persistentClean
  enlisted : after.enlisted = true
  loaded : ∀ m, after.cache.isLoaded m = true ↔ before.cache.isLoaded m = true ∨ m = n
  current : after.cache.Each fun m s => s.loaded = true → s = .clean (row.entry m)

private theorem Instance.readFirst_readAnew {o : Instance} {n : Nat} (hn : n < o.cache.size)
    (row : Row) :
    o.ReadFirst n row (o.readAnew row (withLoaded n)) where
  state := rfl
  enlisted := rfl
  loaded m := by
    rw [readAnew, Cache.isLoaded_load]
    by_cases hm : m = n
    · subst hm
      have hslot : o.cache.save.slot? m = some o.cache.slots[m] := List.getElem?_eq_getElem hn
      simp [hslot, withLoaded]
    · simp [hm, withLoaded, Cache.isLoaded, Cache.save, Cache.slot?]
  current m s hs hl := by
    rw [readAnew, Cache.slot?_load] at hs
    obtain ⟨t, _, rfl⟩ := Option.map_eq_some_iff.mp hs
    split at hl
    · next hsel => rw [if_pos hsel]; rfl
    · next hsel => simp [withLoaded, hl] at hsel

/-- A stale cache is not answered from within a locking transaction. The first read of an instance
that was cached before answers from the row as it is now, whether or not the field was cached, and
with it everything that is cached is loaded again. From then on every field that is loaded is read
as it was found, however often the instance is read and whatever others do; and a rollback that
restores values gives back what was cached before, stale as it was. -/
theorem first_read_refreshes {w : World} (h : Reached ordinary w)
    (hx : w.session.tx.isPessimisticActive = true) {id : ObjectId} {o : Instance}
    (ho : w.session.object id = .ok o) (hs : o.state = .nontransactional)
    (hc : o.connected = true) {field : FieldRef} {n : Nat} (hn : field.resolve o.schema = .ok n) :
    ((∃ a, (w.call (.object id (.read field))).answer = .ok a) ↔
      n < o.schema.fieldCount ∧ (w.store.row? id).isSome = true) ∧
    ∀ a, (w.call (.object id (.read field))).answer = .ok a →
      ∃ row o', w.store.row? id = some row ∧ a = .value (row.entry n) ∧
        (w.call (.object id (.read field))).after.session.object id = .ok o' ∧
        o.ReadFirst n row o' ∧
        ∀ events, (∀ e ∈ events, e.OnlyReads id) →
          ((w.call (.object id (.read field))).after.after events).Repeats id ∧
            (w.session.tx.options.restoreValues = true →
              ((w.call (.object id (.read field))).after.after events).GivesBack id
                o.cache.slots) := by
  obtain ⟨hmem, rfl⟩ := Session.object_eq_ok ho
  have hsized := h.sized hmem
  have hactive := Transaction.active_of_isPessimisticActive hx
  have hanswer := congrArg (·.answer) (World.call_read ho hn)
  -- an answer comes from the row
  have hneeds : ∀ a, (w.call (.object o.id (.read field))).answer = .ok a →
      n < o.schema.fieldCount ∧ ∃ row, w.store.row? o.id = some row := by
    intro a ha
    obtain ⟨v, _, rfl⟩ := Outcome.ok_of_map (hanswer.symm.trans ha)
    obtain ⟨o', hread, _⟩ := World.readField_of_answer ho hn ha
    exact ⟨(readField_steps hread).1, row_of_readField_first hs hc hx hsized hread⟩
  refine ⟨⟨fun ⟨a, ha⟩ => ?_, fun ⟨hlt, hrow⟩ => ?_⟩, fun a ha => ?_⟩
  · obtain ⟨hlt, row, hrow⟩ := hneeds a ha
    exact ⟨hlt, by rw [hrow]; rfl⟩
  · obtain ⟨row, hrow⟩ := Option.isSome_iff_exists.mp hrow
    rw [World.call_read ho hn, readField_first hs hc hx hsized hlt hrow]
    exact ⟨_, rfl⟩
  · obtain ⟨hlt, row, hrow⟩ := hneeds a ha
    have hread := readField_first hs hc hx hsized hlt hrow
    obtain rfl : .value (row.entry n) = a := by
      rw [hread] at hanswer
      exact Except.ok.inj (hanswer.symm.trans ha)
    obtain ⟨o', hread', ho'⟩ := World.readField_of_answer ho hn ha
    obtain rfl : o.readAnew row (withLoaded n) = o' :=
      congrArg (·.after) (hread.symm.trans hread')
    refine ⟨row, _, hrow, rfl, ho', readFirst_readAnew (hsized.slots.symm ▸ hlt) row, ?_⟩
    intro events hevents
    have hstep := h.step (e := .call (.object o.id (.read field))) rfl
    have htx := (World.object_of_call (c := .read field) rfl ho).2.1
    obtain ⟨hreached, htx', o'', ho'', hsince⟩ :=
      World.after_reads hstep (htx.symm ▸ hactive) ho' rfl hevents
    have hsame := htx'.trans htx
    have hactive' := (congrArg (·.active) hsame).trans hactive
    refine ⟨World.repeats hreached hactive' ho'' hsince.state, fun hr => ?_⟩
    exact World.givesBack hreached hactive' ((congrArg (·.options.restoreValues) hsame).trans hr)
      ho'' hsince.state hsince.enlisted hsince.saved

def stale : World :=
  (Sample.run { Options.standard with retainValues := true, restoreValues := true }
    [.begin, .persist Sample.account [.text "A-1", .integer 10], .commit, .begin]).next
    (.foreign ⟨[(Sample.first, [.text "A-1", .integer 11])]⟩)

def rereading : List Event :=
  [.foreign ⟨[(Sample.first, [.text "A-1", .integer 12])]⟩,
    .call (.object Sample.first (.read (.name "number")))]

/-- A transaction begins with values that were kept from the one before, and the balance is not the
one in the row any more. -/
theorem first_read_refreshes_stale :
    ∃ o, stale.session.object Sample.first = .ok o ∧ o.cache.value 1 = .integer 10 ∧
      (stale.call (.object Sample.first (.read (.number 1)))).answer =
        .ok (.value (.integer 11)) ∧
      ((((stale.call (.object Sample.first (.read (.number 1)))).after).after rereading).call
        (.object Sample.first (.read (.name "balance")))).answer = .ok (.value (.integer 11)) ∧
      (((stale.call (.object Sample.first (.read (.number 1)))).after).after rereading).GivesBack
        Sample.first o.cache.slots := by
  have hreached : Reached ordinary stale :=
    (Sample.reached_run (by decide)).step (e := .foreign _) rfl
  obtain ⟨o, ho⟩ : ∃ o, stale.session.object Sample.first = .ok o := ⟨_, rfl⟩
  have hn : (FieldRef.number 1).resolve o.schema = .ok 1 := rfl
  obtain ⟨hok, hfirst⟩ := first_read_refreshes hreached rfl ho (by cases ho; rfl)
    (by cases ho; rfl) hn
  obtain ⟨a, ha⟩ := hok.mpr ⟨by cases ho; decide, rfl⟩
  obtain ⟨row, o', hrow, rfl, ho', hread, hafter⟩ := hfirst a ha
  cases hrow
  have hevents : ∀ e ∈ rereading, e.OnlyReads Sample.first := by
    intro e he
    simp only [rereading, List.mem_cons, List.not_mem_nil, or_false] at he
    rcases he with rfl | rfl
    · trivial
    · exact ⟨rfl, fun _ => ⟨_, rfl⟩⟩
  obtain ⟨s, hslot, hloaded⟩ := Cache.isLoaded_eq_true.mp ((hread.loaded 1).mpr (.inr rfl))
  have hvalue : o'.cache.value 1 = .integer 11 := by
    rw [Cache.value, hslot, hread.current 1 s hslot hloaded]
    rfl
  have hrepeats := (hafter [] (by simp)).1 o' (.name "balance") 1 ho' (by cases ho'; rfl)
    (Cache.isLoaded_eq_true.mpr ⟨s, hslot, hloaded⟩) rereading hevents
  rw [hvalue] at hrepeats
  exact ⟨o, ho, by cases ho; rfl, ha, hrepeats, (hafter rereading hevents).2 rfl⟩

end Lifecycle
