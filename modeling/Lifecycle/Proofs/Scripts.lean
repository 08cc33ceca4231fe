import Lifecycle.Proofs.Backing
import Lifecycle.Proofs.Following
import Lifecycle.Proofs.Isolation
import Lifecycle.Proofs.WrittenFields

/-! A session that works on one instance while others change the store. It finds the instance, reads
its fields and writes some of them, and commits. As long as no row comes or goes nothing stands in
its way, and its commit puts what it wrote into the row as it is then. -/
namespace Lifecycle

def Store.SameDomain (s t : Store) : Prop :=
  ∀ id, (t.row? id).isSome = (s.row? id).isSome

namespace Instance
variable {store store' : Store} {o : Instance} {schema : Schema} {id : ObjectId}
  {written : Nat → Option Value}

/-- There is a row exactly if the state says so, and a commit makes no row and takes none away. -/
def Anchored (store : Store) (o : Instance) : Prop :=
  o.Backed store ∧ o.state ≠ .persistentNew ∧ o.state ≠ .persistentDeleted

/-- Everyone keeps to the rows there are, and the instance that all sessions work on has the changes
that were written. -/
def Plays (schema : Schema) (id : ObjectId) (written : Nat → Option Value) (store : Store)
    (o : Instance) : Prop :=
  o.Anchored store ∧ (o.id = id → o.Carries schema written)

private theorem Plays.framed : Framed (Plays schema id written) :=
  fun _ _ _ hrow h => ⟨⟨Backed.framed hrow h.1.1, h.1.2⟩, h.2⟩

private theorem Plays.foreign (h : o.Plays schema id written store)
    (hs : store.SameDomain store') : o.Plays schema id written store' :=
  ⟨⟨(hs o.id).trans h.1.1, h.1.2⟩, h.2⟩

private theorem Carries.plays (h : o.Carries schema written)
    (hrow : (store.row? o.id).isSome = true) :
    o.Plays schema id written store := by
  have hs : o.state.isStored = true ∧ o.state ≠ .persistentNew ∧ o.state ≠ .persistentDeleted := by
    rcases h.state with hs | ⟨hs, _⟩
    · simp [hs, State.isStored]
    · revert hs
      cases o.state <;> simp [State.isPersistent, State.isUnchanged, State.isStored]
  exact ⟨⟨hrow.trans hs.1.symm, hs.2⟩, fun _ => h⟩

private theorem Plays.begin {tx : Transaction} (h : o.Plays schema id written store) :
    (o.apply tx store .begin).after.Plays schema id written store := by
  rw [apply_begin]
  split
  · next hs =>
    refine ⟨h.1, fun hid => ?_⟩
    -- the instance they work on was not changed outside a transaction
    have hstate := (h.2 hid).state
    rw [hs] at hstate
    simp [State.isUnchanged] at hstate
  · exact h

end Instance

namespace Session

def Call.writes (schema : Schema) (c : Session.Call) (written : Nat → Option Value) :
    Nat → Option Value :=
  match c with
  | .object _ c => c.writes schema written
  | _ => written

def writtenAfter (schema : Schema) (written : Nat → Option Value) (calls : List Session.Call) :
    Nat → Option Value :=
  calls.foldl (fun written c => c.writes schema written) written

def lastWritten (schema : Schema) (calls : List Session.Call) : Nat → Option Value :=
  writtenAfter schema (fun _ => none) calls

/-- What a session does: it begins a transaction and finds the instance, in either order, reads and
loads its fields and writes those that are its own, and commits. The flags tell whether the
transaction is open and whether the instance was found. -/
inductive Script (schema : Schema) (id : ObjectId) (own : Nat → Prop) :
    Bool → Bool → List Session.Call → Prop
  | begin {found : Bool} {calls : List Session.Call} (h : Script schema id own true found calls) :
    Script schema id own false found (.begin :: calls)
  | find {active found : Bool} {calls : List Session.Call}
    (h : Script schema id own active true calls) :
    Script schema id own active found (.find schema id :: calls)
  | work {c : Instance.Call} {calls : List Session.Call} (hc : c.StaysWithin schema own)
    (h : Script schema id own true true calls) :
    Script schema id own true true (.object id c :: calls)
  | commit : Script schema id own true true [.commit]

private theorem Script.writtenAfter_own {schema : Schema} {id : ObjectId} {own : Nat → Prop}
    {active found : Bool} {calls : List Session.Call} {written : Nat → Option Value}
    (h : Script schema id own active found calls) (hw : ∀ n, written n ≠ none → own n) :
    ∀ n, writtenAfter schema written calls n ≠ none → own n := by
  induction h generalizing written with
  | begin _ ih => exact ih hw
  | find _ ih => exact ih hw
  | work hc _ ih => exact ih (hc.writes_own hw)
  | commit => exact hw

end Session

open Session Instance

namespace World
variable {w : World} {schema : Schema} {id : ObjectId} {own : Nat → Prop} {active found : Bool}
  {written : Nat → Option Value} {row : Row} {store : Store}

/-- The commit succeeds, no row comes or goes, and the written values are put into the row. -/
structure CommitStores (id : ObjectId) (written : Nat → Option Value) (row : Row) (w : World) :
    Prop where
  answer : ∃ a, (w.call .commit).answer = .ok a
  domain : w.store.SameDomain (w.call .commit).after.store
  row : ∃ row', (w.call .commit).after.store.row? id = some row' ∧
    ∀ n, row'.entry n = (written n).getD (row.entry n)

structure Engaged (schema : Schema) (id : ObjectId) (active found : Bool)
    (written : Nat → Option Value) (w : World) : Prop where
  reached : Reached ordinary w
  active : w.session.tx.active = active
  found : found = true → id ∈ w.session.ids
  unfound : id ∉ w.session.ids → ∀ n, written n = none
  each : ∀ o ∈ w.session.objects, o.Plays schema id written w.store

private theorem call_find_of_unmanaged {o : Instance} (h : id ∉ w.session.ids)
    (ho : Instance.hollow w.store id schema = .ok o) :
    (w.call (.find schema id)).after = { w with session := w.session.manage o } := by
  cases hm : w.session.object? id with
  | some a =>
    obtain ⟨hmem, rfl⟩ := ById.mem_of_find? hm
    exact absurd (List.mem_map_of_mem hmem) h
  | none =>
    simp only [call, Session.find, pair, hm, ho]
    rfl

private theorem call_object {o : Instance} {c : Instance.Call}
    (ho : w.session.object id = .ok o) (hc : c ≠ .flush ∧ c ≠ .detach) :
    (w.call (.object id c)).after =
      { w with session := w.session.manage (o.call w.session.tx c w.store).after.2 } := by
  have hstore : (o.call w.session.tx c w.store).after.1 = w.store :=
    Instance.call_store hc.1 fun hd => absurd hd hc.2
  rw [call, onObject, ho]
  simp only [Outcome.within, hstore]

namespace Engaged

private theorem holds (h : w.Engaged schema id active found written) :
    Holds w.session.tx (Plays schema id written) w.pair :=
  ⟨rfl, h.reached.enlistedExactly.sorted, h.each⟩

private theorem foreign (h : w.Engaged schema id active found written)
    (hs : w.store.SameDomain store) :
    (w.next (.foreign store)).Engaged schema id active found written :=
  ⟨h.reached.step (e := .foreign store) rfl, h.active, h.found, h.unfound,
    fun o ho => (h.each o ho).foreign hs⟩

private theorem begin (h : w.Engaged schema id false found written) :
    (w.call .begin).after.Engaged schema id true found written := by
  obtain ⟨n, hn⟩ := Session.begin_ok (w := w.pair) h.holds.sorted h.active
  have hids : (w.call .begin).after.session.ids = w.session.ids :=
    (Session.begin_confined w.pair).ids
  refine ⟨h.reached.step (e := .call .begin) rfl, (Session.begin_answer hn).1, ?_, ?_, ?_⟩
  · rw [hids]
    exact h.found
  · rw [hids]
    exact h.unfound
  · have hm := Session.begin_meets (Q := fun _ => Plays schema id written) Plays.framed
      (fun _ => Plays.framed) h.holds fun _ _ _ _ ho => ho.begin
    refine Outcome.meets_self.mp (hm.mono ?_ fun p hp => hp.each)
    rintro p ⟨_, _, hp⟩
    exact hp.each

private theorem find (h : w.Engaged schema id active found written)
    (hrow : w.store.row? id = some row) :
    (w.call (.find schema id)).after.Engaged schema id active true written := by
  by_cases hin : id ∈ w.session.ids
  · obtain ⟨o, ho⟩ := Session.exists_object hin
    rw [call_find_of_managed ho]
    exact { h with found := fun _ => hin }
  · obtain rfl : written = fun _ => none := funext (h.unfound hin)
    obtain ⟨o, ho⟩ := Instance.hollow_of_row schema hrow
    have hid : o.id = id := by
      obtain ⟨_, _, rfl⟩ := hollow_eq_ok ho
      rfl
    have hplays : o.Plays schema id (fun _ => none) w.store :=
      (Carries.found ho).plays (by rw [hid, hrow]; rfl)
    have hreached := h.reached.step (e := .call (.find schema id)) rfl
    rw [World.next, call_find_of_unmanaged hin ho] at hreached
    rw [call_find_of_unmanaged hin ho]
    refine ⟨hreached, h.active, fun _ => ?_, fun _ _ => rfl, ?_⟩
    · exact hid ▸ Session.mem_ids_manage w.session o
    · exact (h.holds.manage Plays.framed (fun _ _ => rfl) hplays).each

private theorem managed (h : w.Engaged schema id active true written) :
    ∃ o, w.session.object id = .ok o ∧ o ∈ w.session.objects ∧ o.id = id ∧
      o.Carries schema written := by
  obtain ⟨o, ho⟩ := Session.exists_object (h.found rfl)
  obtain ⟨hmem, hid⟩ := Session.object_eq_ok ho
  exact ⟨o, ho, hmem, hid, (h.each o hmem).2 hid⟩

private theorem work (h : w.Engaged schema id true true written)
    (hrow : w.store.row? id = some row) (hown : Writable schema own) {c : Instance.Call}
    (hc : c.StaysWithin schema own) :
    (w.call (.object id c)).after.Engaged schema id true true (c.writes schema written) := by
  have hquiet := hc.quiet
  obtain ⟨o, ho, hmem, rfl, hcarries⟩ := h.managed
  have hid := (Instance.call_own w.session.tx w.store o hquiet.1).id
  have hsized := h.reached.sized hmem
  have hplays : (o.call w.session.tx c w.store).after.2.Plays schema o.id
      (c.writes schema written) w.store :=
    (hcarries.call h.active hsized hown hc w.store).plays (by rw [hid, hrow]; rfl)
  have hreached := h.reached.step (e := .call (.object o.id c)) hquiet.1
  rw [World.next, call_object ho hquiet.2] at hreached
  rw [call_object ho hquiet.2]
  generalize (o.call w.session.tx c w.store).after.2 = a at hid hplays hreached
  have hin : o.id ∈ (w.session.manage a).ids := hid ▸ Session.mem_ids_manage w.session a
  refine ⟨hreached, h.active, fun _ => hin, fun hout => absurd hin hout, ?_⟩
  intro b hb
  rcases ById.mem_insert h.holds.sorted hb with rfl | ⟨hb, hne⟩
  · exact hplays
  · exact ⟨(h.each b hb).1, fun hbo => absurd (hbo.trans hid.symm) hne⟩

private theorem commit (h : w.Engaged schema id true true written)
    (hrow : w.store.row? id = some row) : w.CommitStores id written row := by
  have henlisted := h.reached.enlistedExactly
  have hbacked : Everywhere (fun tx s o => o.EnlistedExactly tx ∧ o.Backed s) w.pair :=
    henlisted.mono fun o ho he => ⟨he, (h.each o ho).1.1⟩
  obtain ⟨n, hn⟩ := (Session.commit_backed (w := w.pair) h.active hbacked).exists_ok
  have hok : (w.call .commit).answer = .ok (.cycle n) := congrArg (Except.map Answer.cycle) hn
  have hcommitted := h.reached.committed hn
  refine ⟨⟨_, hok⟩, ?_, ?_⟩
  · intro k
    by_cases hk : k ∈ w.session.ids
    · obtain ⟨o, ho, rfl⟩ := List.mem_map.mp hk
      obtain ⟨_, _, _, hc⟩ := hcommitted.each o ho
      obtain ⟨_, hnew, hdeleted⟩ := (h.each o ho).1
      exact hc.row.isSome hnew hdeleted
    · rw [hcommitted.rows k hk]
  · obtain ⟨o, _, hmem, rfl, hcarries⟩ := h.managed
    obtain ⟨_, _, _, hc⟩ := hcommitted.each o hmem
    have hr := hc.row
    rw [hrow] at hr
    exact hcarries.commitsRow hr

end Engaged

inductive Stage (schema : Schema) (id : ObjectId) (own : Nat → Prop) (w : World)
    (written : Nat → Option Value) : List Session.Call → Prop
  | engaged {active found : Bool} {calls : List Session.Call}
    (hs : Script schema id own active found calls)
    (h : w.Engaged schema id active found written) (hw : ∀ n, written n ≠ none → own n) :
    Stage schema id own w written calls
  | through (h : ∀ n, written n = none) : Stage schema id own w written []

namespace Stage
variable {calls : List Session.Call} {c : Session.Call}

/-- What a session writes by its script is its own. -/
theorem writtenAfter_own (h : w.Stage schema id own written calls) :
    ∀ n, Session.writtenAfter schema written calls n ≠ none → own n := by
  cases h with
  | engaged hs _ hw => exact hs.writtenAfter_own hw
  | through hnone => exact fun n hn => absurd (hnone n) hn

/-- At the end of its script a session has nothing to be written. -/
theorem written_of_nil (h : w.Stage schema id own written []) : ∀ n, written n = none := by
  cases h with
  | engaged hs => cases hs
  | through hnone => exact hnone

/-- Whatever others do to the values of the rows, a session stands where it stood. -/
theorem foreign (h : w.Stage schema id own written calls)
    (hs : w.store.SameDomain store) :
    (w.next (.foreign store)).Stage schema id own written calls := by
  cases h with
  | engaged hscript h hw => exact .engaged hscript (h.foreign hs) hw
  | through hnone => exact .through hnone

/-- Up to its commit a session keeps to itself. -/
theorem work (h : w.Stage schema id own written (c :: calls)) (hc : c ≠ .commit)
    (hrow : w.store.row? id = some row) (hown : Writable schema own) :
    (w.call c).after.store = w.store ∧ (w.call c).after.ids = w.ids ∧
      (w.call c).after.Stage schema id own (c.writes schema written) calls := by
  cases h with
  | engaged hs h hw =>
    cases hs with
    | begin hs => exact ⟨Session.begin_store w.pair, rfl, .engaged hs h.begin hw⟩
    | find hs => exact ⟨Session.find_store, rfl, .engaged hs (h.find hrow) hw⟩
    | work hwithin hs =>
      obtain ⟨o, ho, _⟩ := h.managed
      have hafter := call_object ho hwithin.quiet.2
      refine ⟨?_, ?_, .engaged hs (h.work hrow hown hwithin) (hwithin.writes_own hw)⟩
      all_goals rw [hafter]
    | commit => exact absurd rfl hc

/-- The commit is the last call, and it stores what was written. -/
theorem commit (h : w.Stage schema id own written (.commit :: calls))
    (hrow : w.store.row? id = some row) : calls = [] ∧ w.CommitStores id written row := by
  cases h with
  | engaged hs h hw =>
    cases hs
    exact ⟨rfl, h.commit hrow⟩

end Stage

/-- The session can take part: no transaction is open, no row is missing that it counts on, and the
instance is not managed yet, or nothing of it was changed. -/
structure Ready (schema : Schema) (id : ObjectId) (w : World) : Prop where
  reached : Reached ordinary w
  closed : w.session.tx.active = false
  each : ∀ o ∈ w.session.objects, o.Plays schema id (fun _ => none) w.store

/-- A new session can always take part. -/
theorem fresh_ready (store : Store) (ids : IdSource) (options : Options) (schema : Schema)
    (id : ObjectId) : (World.fresh store ids options).Ready schema id :=
  ⟨.fresh store ids options, rfl, nofun⟩

/-- Whoever is ready can begin its script. -/
theorem Ready.stage {calls : List Session.Call} (h : w.Ready schema id)
    (hs : Script schema id own false false calls) :
    w.Stage schema id own (fun _ => none) calls :=
  .engaged hs ⟨h.reached, h.closed, nofun, fun _ _ => rfl, h.each⟩ fun _ hn => absurd rfl hn

end World

end Lifecycle
