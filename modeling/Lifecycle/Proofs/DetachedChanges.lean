import Lifecycle.Proofs.Detaching
import Lifecycle.Proofs.Following
import Lifecycle.Proofs.WrittenFields
import Lifecycle.Scenario.Step

/-! Changes of a detached copy. No transaction reaches the copy, so that it has what was written to
it, and no other change, until it is attached. From then on it is an instance with pending changes,
and the commit puts all of them into the row. -/
namespace Lifecycle

/-- A field that can be given a new value while there is a row. -/
def Schema.IsChangeable (schema : Schema) (n : Nat) : Prop :=
  n < schema.fieldCount ∧ schema.isPrimaryKey n = false

namespace Instance
variable {tx : Transaction} {store : Store} {r : Request} {o : Instance} {schema : Schema}
  {written : Nat → Option Value} {n : Nat} {c : Call}

section Detached
variable (hs : o.state.isDetached = true)
include hs

private theorem not_persistent_of_detached : o.state.isPersistent = false := by
  revert hs
  cases o.state <;> simp [State.isDetached, State.isPersistent]

private theorem apply_of_detached (ha : r ≠ .attach) (hw : r ≠ .writeField) (tx : Transaction)
    (store : Store) : (o.apply tx store r).after = o := by
  cases hm : transition tx o.schema.identity r o.state with
  | error refusal => simp only [apply, hm, Outcome.failed]
  | ok m =>
    obtain rfl := idle_of_detached hs ha hw m hm
    rw [apply_of_idle hm rfl rfl]
    rfl

private theorem flush_of_detached (store : Store) : (o.flush store).after = (store, o) := by
  rw [flush_of_not_persistent (not_persistent_of_detached hs)]
  rfl

private theorem readField_of_detached (tx : Transaction) (store : Store) (n : Nat) :
    (o.readField tx store n).after = o := by
  have happly := apply_of_detached (r := .readField (o.cache.isLoaded n)) hs (by simp) (by simp)
    tx store
  have hsupply : o.supply store n = .done o () := by
    rw [supply, if_neg (by simp [not_persistent_of_detached hs])]
  rw [readField, ifDeclared]
  split
  · generalize o.apply tx store (.readField (o.cache.isLoaded n)) = a at happly
    obtain ⟨o', answer⟩ := a
    obtain rfl : o' = o := happly
    cases answer with
    | error f => rfl
    | ok s =>
      simp only [Outcome.andThen, hsupply, Outcome.done]
  · rfl

end Detached

namespace Call

/-- Anything may be asked of a detached copy except that it be attached, and the fields that are
written are no key fields. -/
def LeavesDetached (schema : Schema) : Call → Prop
  | .attach => False
  | .write field _ => ∃ n, field.resolve schema = .ok n ∧ schema.IsChangeable n
  | _ => True

end Call

/-- A detached copy whose changes are the `written` values. -/
structure Away (schema : Schema) (written : Nat → Option Value) (o : Instance) : Prop where
  schema : o.schema = schema
  state : o.state = .detachedDirty ∨ o.state = .detachedClean ∧ ∀ n, written n = none
  records : o.cache.Records written

namespace Away

private theorem isDetached (h : o.Away schema written) : o.state.isDetached = true := by
  rcases h.state with hs | ⟨hs, _⟩ <;> rw [hs] <;> rfl

private theorem detach (hp : o.state.isPersistent = true) (hc : o.state.isDirty = false)
    (hclean : ∀ n, o.cache.isDirty n = false) (tx : Transaction) (store : Store) :
    (o.detach tx store).after.2.Away o.schema fun _ => none := by
  rw [detach_clean hp hc]
  refine ⟨rfl, .inr ⟨rfl, fun _ => rfl⟩, nofun, ?_⟩
  intro n s hs _
  have hn := hclean n
  rw [Cache.isDirty, show o.cache.slot? n = some s from hs] at hn
  exact hn

private theorem writeField (h : o.Away schema written) (hsized : o.Sized)
    (hn : schema.IsChangeable n) (tx : Transaction) (store : Store) (v : Value) :
    ∃ a, o.writeField tx store n v = .done a () ∧
      a.Away schema (Function.update written n (some v)) := by
  have happly : o.apply tx store .writeField =
      .done { o with state := .detachedDirty } .detachedDirty := by
    rw [apply, writeField_of_detached tx _ h.isDetached]
    rfl
  have hsize : n < o.cache.size := hsized.slots ▸ h.schema.symm ▸ hn.1
  refine ⟨{ o with state := .detachedDirty, cache := o.cache.put n (.written v) }, ?_,
    ⟨h.schema, .inl rfl, h.records.put hsize v⟩⟩
  rw [Instance.writeField, ifDeclared, if_pos (h.schema.symm ▸ hn.1),
    if_neg (by simp [not_persistent_of_detached h.isDetached]), happly]
  rfl

/-- The copy keeps its changes whatever is asked of it. -/
theorem call (h : o.Away schema written) (hsized : o.Sized) (hord : c.isOrdinary = true)
    (hc : c.LeavesDetached schema) (tx : Transaction) (store : Store) :
    (o.call tx c store).after.2.Away schema (c.writes schema written) := by
  have hd := h.isDetached
  have hidle : ∀ r, r ≠ .attach → r ≠ .writeField →
      (o.apply tx store r).after.Away schema written := by
    intro r ha hw
    rw [apply_of_detached hd ha hw]
    exact h
  cases c with
  | read field =>
    change (o.withField field fun n => o.readField tx store n).after.Away schema written
    refine withField_kept (P := Away schema written) h fun n _ => ?_
    rw [readField_of_detached hd]
    exact h
  | write field v =>
    obtain ⟨n, hn, hchangeable⟩ := hc
    obtain ⟨a, hwrite, haway⟩ := h.writeField hsized hchangeable tx store v
    rw [call_write (h.schema.symm ▸ hn) hwrite]
    simp only [Call.writes, hn]
    exact haway
  | flush =>
    change (o.flush store).after.2.Away schema written
    rw [flush_of_detached hd]
    exact h
  | detach =>
    change (o.detach tx store).after.2.Away schema written
    rw [detach_of_not_persistent (not_persistent_of_detached hd)]
    exact h
  | setPlan plan => exact ⟨h.schema, h.state, h.records⟩
  | attach => exact hc.elim
  | apply r | perform e => cases hord
  | _ => exact hidle _ (by simp) (by simp)

private theorem attach (h : o.Away schema written) (tx : Transaction) (store : Store) :
    ∃ a s, o.apply tx store .attach = .done a s ∧ a.Carries schema written := by
  have hgranted := attach_of_detached tx o.schema.identity h.isDetached
  rcases h.state with hs | ⟨hs, hnone⟩
  · rw [if_pos hs] at hgranted
    refine ⟨{ o with state := .persistentDirty, enlisted := true }, .persistentDirty, ?_,
      ⟨h.schema, .inl rfl, h.records.kept, h.records.clean⟩⟩
    rw [apply, hgranted]
    rfl
  · rw [if_neg (by simp [hs])] at hgranted
    refine ⟨{ o with state := .persistentClean, enlisted := true }, .persistentClean, ?_,
      ⟨h.schema, .inr ⟨⟨rfl, rfl⟩, hnone⟩, h.records.kept, h.records.clean⟩⟩
    rw [apply, hgranted]
    rfl

end Away

end Instance

namespace Event

def callOn? (id : ObjectId) : Event → Option Instance.Call
  | .call (.object k c) => if k = id then some c else none
  | _ => none

private theorem eq_of_callOn? {id : ObjectId} {e : Event} {c : Instance.Call}
    (h : e.callOn? id = some c) : e = .call (.object id c) := by
  simp only [callOn?] at h
  split at h
  · split at h
    · next hk =>
      cases h
      rw [hk]
    · cases h
  · cases h

def writes (schema : Schema) (id : ObjectId) (written : Nat → Option Value) (e : Event) :
    Nat → Option Value :=
  (e.callOn? id).elim written (·.writes schema written)

def writtenAfter (schema : Schema) (id : ObjectId) (written : Nat → Option Value)
    (events : List Event) : Nat → Option Value :=
  events.foldl (writes schema id) written

/-- The last value that the events write to a field of the instance, if they write it at all. -/
def lastWritten (schema : Schema) (id : ObjectId) (events : List Event) : Nat → Option Value :=
  writtenAfter schema id (fun _ => none) events

end Event

/-- The row has the written values, and is as it was otherwise. Where there is none, nothing was
written. -/
def Row.Rewritten (written : Nat → Option Value) (before after : Option Row) : Prop :=
  match before with
  | some row => ∃ row', after = some row' ∧ ∀ n, row'.entry n = (written n).getD (row.entry n)
  | none => after = none ∧ ∀ n, written n = none

open Instance

namespace World
variable {w : World} {id : ObjectId} {allowed : Instance.Call → Prop} {e : Event} {o : Instance}
  {schema : Schema} {written : Nat → Option Value} {events : List Event}

private theorem Respects.of_no_call (h : w.Respects id allowed e) (hc : e.callOn? id = none) :
    w.Respects id (fun _ => False) e := by
  cases e with
  | foreign store => trivial
  | call c =>
    cases c with
    | object k c =>
      refine ⟨h.1, fun hk => ?_⟩
      rw [Event.callOn?, if_pos hk] at hc
      cases hc
    | _ => exact h

private theorem next_written {Q : (Nat → Option Value) → Instance → Prop}
    (h : Reached ordinary w) (ho : w.session.object id = .ok o) (he : w.Respects id allowed e)
    (called : ∀ c, c.isOrdinary = true → allowed c →
      Q (c.writes schema written) (o.call w.session.tx c w.store).after.2)
    (turned : ∀ {tx' o'}, o.Turn (fun _ => False) w.session.tx tx' o' → Q written o') :
    ∃ o', (w.next e).session.object id = .ok o' ∧ Q (e.writes schema id written) o' := by
  cases hc : e.callOn? id with
  | some c =>
    obtain rfl := Event.eq_of_callOn? hc
    obtain ⟨_, _, hafter⟩ := object_of_call he.1 ho
    refine ⟨_, hafter, ?_⟩
    rw [Event.writes, hc]
    exact called c he.1 (he.2 rfl)
  | none =>
    obtain ⟨o', ho', hturn⟩ := next_turn h ho (he.of_no_call hc)
    refine ⟨o', ho', ?_⟩
    rw [Event.writes, hc]
    exact turned hturn

private theorem Throughout.writing {P : World → Event → Prop}
    {I : (Nat → Option Value) → World → Prop}
    (step : ∀ {written w e}, I written w → P w e → I (e.writes schema id written) (w.next e))
    (h : w.Throughout P events) (hi : I written w) :
    I (Event.writtenAfter schema id written events) (w.after events) := by
  induction events generalizing w written with
  | nil => exact hi
  | cons e rest ih => exact ih h.2 (step hi h.1)

/-- The copy is left as it is but for its changes: transactions begin and end, others change the
store, and all of the copy that may be asked of it is asked, except that it be attached. -/
def LeavesCopy (schema : Schema) (id : ObjectId) (w : World) (e : Event) : Prop :=
  e = .call .commit ∨ e = .call .rollback ∨ w.Respects id (Call.LeavesDetached schema) e

private structure Lent (schema : Schema) (id : ObjectId) (written : Nat → Option Value)
    (w : World) : Prop where
  reached : Reached ordinary w
  copy : ∃ o, w.session.object id = .ok o ∧ o.Away schema written

namespace Lent

private theorem ended (h : w.Lent schema id written) {c : Session.Call}
    (hc : c = .commit ∨ c = .rollback) : (w.call c).after.Lent schema id written := by
  -- No end of a transaction reaches the copy, also not one that fails.
  obtain ⟨o, ho, haway⟩ := h.copy
  have hsame : ∃ o', (w.call c).after.session.object id = .ok o' ∧ o' = o := by
    refine h.reached.end_object (Q := (· = o)) ho rfl hc ?_ ?_
    · rintro store _ rfl
      rw [flush_of_detached haway.isDetached]
    · rintro store _ r hr rfl
      rcases hr with rfl | rfl | rfl | rfl <;>
        exact apply_of_detached haway.isDetached (by simp) (by simp) _ store
  obtain ⟨_, ho', rfl⟩ := hsame
  refine ⟨h.reached.step (e := .call c) ?_, _, ho', haway⟩
  rcases hc with rfl | rfl <;> rfl

private theorem next (h : w.Lent schema id written) (he : w.LeavesCopy schema id e) :
    (w.next e).Lent schema id (e.writes schema id written) := by
  rcases he with rfl | rfl | he
  · exact h.ended (.inl rfl)
  · exact h.ended (.inr rfl)
  · obtain ⟨o, ho, haway⟩ := h.copy
    have hsized := h.reached.sized (Session.object_eq_ok ho).1
    refine ⟨h.reached.step he.ordinary, ?_⟩
    refine next_written h.reached ho he (fun c hord hc => haway.call hsized hord hc _ _) ?_
    intro tx' o' hturn
    cases hturn with
    | passed => exact haway
    | told store _ | evicted store =>
      rw [apply_of_detached haway.isDetached (by simp) (by simp)]
      exact haway
    | called _ _ hfalse => exact hfalse.elim

end Lent

private structure Rejoined (schema : Schema) (id : ObjectId) (written : Nat → Option Value)
    (w : World) : Prop where
  reached : Reached ordinary w
  active : w.session.tx.active = true
  object : ∃ o, w.session.object id = .ok o ∧ o.Carries schema written

namespace Rejoined

private theorem next (h : w.Rejoined schema id written)
    (he : w.Respects id (Call.StaysWithin schema schema.IsChangeable) e) :
    (w.next e).Rejoined schema id (e.writes schema id written) := by
  obtain ⟨o, ho, hcarries⟩ := h.object
  have hsized := h.reached.sized (Session.object_eq_ok ho).1
  refine ⟨h.reached.step he.ordinary, (congrArg (·.active) (he.tx h.active)).trans h.active, ?_⟩
  refine next_written h.reached ho he
    (fun c _ hc => hcarries.call h.active hsized (fun _ hn => hn) hc _) ?_
  intro tx' o' hturn
  cases hturn with
  | passed => exact hcarries
  | told _ hbegin =>
    have hactive := h.active
    rw [(Transaction.begin_eq_ok hbegin).1] at hactive
    cases hactive
  | evicted store => exact hcarries.evict _ store
  | called _ _ hfalse => exact hfalse.elim

private theorem commit (h : w.Rejoined schema id written) {a : Answer}
    (hok : (w.call .commit).answer = .ok a) :
    Row.Rewritten written (w.store.row? id) ((w.call .commit).after.store.row? id) := by
  obtain ⟨o, ho, hcarries⟩ := h.object
  obtain ⟨hmem, rfl⟩ := Session.object_eq_ok ho
  obtain ⟨n, hn, _⟩ := Outcome.ok_of_map hok
  obtain ⟨_, _, _, hcommitted⟩ := (h.reached.committed hn).each o hmem
  have hrow := hcommitted.row
  cases hbefore : w.store.row? o.id with
  | none => exact hcarries.commitsRow_none (hbefore ▸ hrow)
  | some row => exact hcarries.commitsRow (hbefore ▸ hrow)

end Rejoined

def lent (id : ObjectId) (w : World) : World :=
  (w.call (.object id .detach)).after

/-- The world once it was detached, went through the events, and is attached. -/
def returned (id : ObjectId) (away : List Event) (w : World) : World :=
  (((w.lent id).after away).call (.object id .attach)).after

private theorem detached (h : Reached ordinary w) (ho : w.session.object id = .ok o)
    (hp : o.state.isPersistent = true) (hc : o.state.isDirty = false)
    (hclean : ∀ n, o.cache.isDirty n = false) :
    (w.call (.object id .detach)).answer = .ok (.state .detachedClean) ∧
      (w.lent id).Lent o.schema id fun _ => none := by
  obtain ⟨hanswer, _, hafter⟩ := object_of_call (c := .detach) rfl ho
  refine ⟨?_, h.step (e := .call (.object id .detach)) rfl, _, hafter, .detach hp hc hclean _ _⟩
  rw [hanswer]
  change (Except.map Answer.state (o.detach w.session.tx w.store).answer) = _
  rw [detach_clean hp hc]
  rfl

private theorem Lent.attach (h : w.Lent schema id written) (ha : w.session.tx.active = true) :
    (∃ s, (w.call (.object id .attach)).answer = .ok (.state s)) ∧
      (w.call (.object id .attach)).after.Rejoined schema id written := by
  obtain ⟨o, ho, haway⟩ := h.copy
  obtain ⟨hanswer, htx, hafter⟩ := object_of_call (c := .attach) rfl ho
  obtain ⟨a, s, hattach, hcarries⟩ := haway.attach w.session.tx w.store
  have hcall : o.call w.session.tx .attach w.store = .done (w.store, a) (.state s) := by
    change ((o.apply w.session.tx w.store .attach).map Answer.state).within (w.store, ·) = _
    rw [hattach]
    rfl
  rw [hcall] at hanswer hafter
  exact ⟨⟨s, hanswer⟩, h.reached.step (e := .call (.object id .attach)) rfl,
    (congrArg (·.active) htx).trans ha, a, hafter, hcarries⟩

end World

open World

/-- What is written to a detached copy is not lost. An instance without changes is detached. While
it is away transactions are committed and rolled back, others change its row, and fields outside the
key are written; then, in a transaction, it is attached, and worked on. If the transaction commits,
the row is as it was just before that, but for the fields that were written since the instance was
detached: they have the values that were written last. What was missing in the copy and was not
written is left alone. -/
theorem detached_changes_are_committed {w : World} (h : Reached ordinary w) {id : ObjectId}
    {o : Instance} (ho : w.session.object id = .ok o)
    (hs : o.state = .hollow ∨ o.state = .persistentClean ∨ o.state = .nontransactional)
    (hclean : ∀ n, o.cache.isDirty n = false) {away working : List Event}
    (haway : (w.lent id).Throughout (LeavesCopy o.schema id) away)
    (hactive : ((w.lent id).after away).session.tx.active = true)
    (hworking : (w.returned id away).Throughout
      (Respects id (Call.StaysWithin o.schema o.schema.IsChangeable)) working) :
    (w.call (.object id .detach)).answer = .ok (.state .detachedClean) ∧
    (∃ s, (((w.lent id).after away).call (.object id .attach)).answer = .ok (.state s)) ∧
    ∀ a, (((w.returned id away).after working).call .commit).answer = .ok a →
      Row.Rewritten (Event.lastWritten o.schema id (away ++ working))
        (((w.returned id away).after working).store.row? id)
        ((((w.returned id away).after working).call .commit).after.store.row? id) := by
  have hstate : o.state.isPersistent = true ∧ o.state.isDirty = false := by
    rcases hs with hs | hs | hs <;> rw [hs] <;> exact ⟨rfl, rfl⟩
  obtain ⟨hdetach, hlent⟩ := detached h ho hstate.1 hstate.2 hclean
  obtain ⟨hattach, hback⟩ := (haway.writing Lent.next hlent).attach hactive
  have hlast := hworking.writing Rejoined.next hback
  refine ⟨hdetach, hattach, fun a hok => ?_⟩
  rw [Event.lastWritten, Event.writtenAfter, List.foldl_append]
  exact hlast.commit hok

def lendable : World :=
  Sample.run .standard
    [.begin, .persist Scenario.sampleSchema
        [.integer 1, .text "Ada", .text "ada@example.com", .null],
      .commit, .begin, .object Sample.first (.retrieve true)]

def onTheRoad : List Event :=
  [.call .commit, .call (.object Sample.first (.write (.name "email") (.text "draft"))),
    .call .begin, .call (.object Sample.first (.write (.number 2) (.text "ada@example.org"))),
    .call (.object Sample.first (.read (.name "bio"))), .call .rollback,
    .foreign ⟨[(Sample.first, [.integer 1, .text "Byron", .text "ada@example.com",
      .text "a life"])]⟩, .call .begin]

def backAtHome : List Event :=
  [.call .evictAll, .call (.object Sample.first (.write (.name "name") (.text "Lovelace")))]

/-- A person is detached. One transaction is committed and another one rolled back, the address is
written in between, and somebody else writes a biography. -/
theorem detached_changes_are_committed_lendable :
    (((lendable.returned Sample.first onTheRoad).after backAtHome).call .commit).answer =
        .ok (.cycle 4) ∧
      ∃ row, (((lendable.returned Sample.first onTheRoad).after backAtHome).call
          .commit).after.store.row? Sample.first = some row ∧
        row.entry 1 = .text "Lovelace" ∧ row.entry 2 = .text "ada@example.org" ∧
        row.entry 3 = .text "a life" := by
  obtain ⟨o, ho⟩ : ∃ o, lendable.session.object Sample.first = .ok o := ⟨_, rfl⟩
  have hschema : o.schema = Scenario.sampleSchema := by
    cases ho
    rfl
  have hclean : ∀ n, o.cache.isDirty n = false := by
    cases ho
    intro n
    match n with
    | 0 | 1 | 2 | 3 => rfl
    | _ + 4 => rfl
  have hname : Scenario.sampleSchema.IsChangeable 1 := ⟨by decide, rfl⟩
  have hemail : Scenario.sampleSchema.IsChangeable 2 := ⟨by decide, rfl⟩
  have haway : (lendable.lent Sample.first).Throughout
      (LeavesCopy Scenario.sampleSchema Sample.first) onTheRoad :=
    ⟨.inl rfl, .inr (.inr ⟨rfl, fun _ => ⟨2, rfl, hemail⟩⟩), .inr (.inr trivial),
      .inr (.inr ⟨rfl, fun _ => ⟨2, rfl, hemail⟩⟩), .inr (.inr ⟨rfl, fun _ => trivial⟩),
      .inr (.inl rfl), .inr (.inr trivial), .inr (.inr trivial), trivial⟩
  have hworking : (lendable.returned Sample.first onTheRoad).Throughout
      (Respects Sample.first
        (Call.StaysWithin Scenario.sampleSchema Scenario.sampleSchema.IsChangeable)) backAtHome :=
    ⟨trivial, ⟨rfl, fun _ => ⟨1, rfl, hname⟩⟩, trivial⟩
  have hrewritten := (detached_changes_are_committed (Sample.reached_run (by decide)) ho
    (.inr (.inl (by cases ho; rfl))) hclean (hschema ▸ haway) rfl (hschema ▸ hworking)).2.2
    (.cycle 4) rfl
  rw [hschema] at hrewritten
  obtain ⟨row, hrow, hentry⟩ := hrewritten
  exact ⟨rfl, row, hrow, hentry 1, hentry 2, hentry 3⟩

end Lifecycle
