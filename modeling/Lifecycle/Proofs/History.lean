import Lifecycle.Proofs.Rules
import Lifecycle.Session.Call

/-! Runs of a session over a store that others may change between the calls. Invariants of the
managed instances are packaged so that each is shown once for every kind of call. -/
namespace Lifecycle

namespace Session.Call

/-- A call for applications, not a bare transition or effect, and not one on the transaction alone.
-/
def isOrdinary : Session.Call → Bool
  | object _ c => c.isOrdinary
  | beginTransaction | finishTransaction => false
  | _ => true

end Session.Call

inductive Event where
  | call (c : Session.Call)
  /-- Others put the store into a new condition. -/
  | foreign (store : Store)

namespace Event

def isOrdinary : Event → Bool
  | call c => c.isOrdinary
  | foreign _ => true

end Event

namespace World

/-- The world after one event. A call that fails leaves what it did. -/
def next (w : World) : Event → World
  | .call c => (w.call c).after
  | .foreign store => { w with store }

def after (w : World) (events : List Event) : World :=
  events.foldl next w

/-- A run goes on where the one before it has led. -/
theorem after_append (w : World) (past future : List Event) :
    w.after (past ++ future) = (w.after past).after future :=
  List.foldl_append

private theorem after_calls (w : World) (calls : List Session.Call) :
    w.after (calls.map .call) = w.run calls := by
  rw [after, run, List.foldl_map]
  rfl

/-- To make an instance persistent is to draw an identity and to manage it. -/
theorem call_persist (w : World) (schema : Schema) (values : List Value) :
    (w.call (.persist schema values)).after.pair =
      (Session.persist w.ids.peek schema values w.pair).after := by
  simp only [call]
  generalize Session.persist w.ids.peek schema values w.pair = r
  obtain ⟨p, answer⟩ := r
  cases answer <;> rfl

/-- A session keeps the options it started with. -/
theorem next_options (w : World) (e : Event) :
    (w.next e).session.tx.options = w.session.tx.options := by
  cases e with
  | foreign store => rfl
  | call c =>
    cases c with
    | begin => exact Session.begin_options
    | commit => exact Session.commit_options
    | rollback => exact Session.rollback_options
    | persist schema values =>
      change (w.call (.persist schema values)).after.pair.2.tx.options = _
      rw [call_persist, Session.persist_tx]
      rfl
    | find schema id => exact congrArg (·.options) Session.find_tx
    | evictAll => rfl
    | object id c =>
      change (w.onObject id c).after.session.tx.options = _
      rw [onObject]
      split <;> rfl
    | beginTransaction =>
      change (w.onTransaction Transaction.begin).after.session.tx.options = _
      rw [onTransaction]
      split
      · next tx htx => exact (Transaction.begin_eq_ok htx).2.2
      · rfl
    | finishTransaction =>
      change (w.onTransaction Transaction.finish).after.session.tx.options = _
      rw [onTransaction]
      split
      · next tx htx =>
        rw [Transaction.finish_eq_ok htx]
        rfl
      · rfl

/-- An open transaction is ended by commit and rollback only. -/
theorem call_active {w : World} {c : Session.Call} (hc : c.isOrdinary) (hcommit : c ≠ .commit)
    (hrollback : c ≠ .rollback) (ha : w.session.tx.active = true) :
    (w.call c).after.session.tx = w.session.tx := by
  cases c with
  | begin =>
    change (Session.begin w.pair).after.2.tx = _
    rw [Session.begin_of_active (w := w.pair) ha]
    rfl
  | commit => exact absurd rfl hcommit
  | rollback => exact absurd rfl hrollback
  | persist schema values =>
    change (w.call (.persist schema values)).after.pair.2.tx = _
    rw [call_persist, Session.persist_tx]
    rfl
  | find schema id => exact Session.find_tx
  | evictAll => rfl
  | object id c =>
    change (w.onObject id c).after.session.tx = _
    rw [onObject]
    split <;> rfl
  | beginTransaction | finishTransaction => cases hc

def fresh (store : Store) (ids : IdSource) (options : Options) : World :=
  ⟨store, ids, .start options⟩

end World

/-- The worlds a new session can get to by permitted events. -/
inductive Reached (permitted : World → Event → Prop) : World → Prop
  | fresh (store : Store) (ids : IdSource) (options : Options) :
    Reached permitted (.fresh store ids options)
  | step {w : World} {e : Event} (h : Reached permitted w) (he : permitted w e) :
    Reached permitted (w.next e)

/-- Every call of an application, and every change by others. -/
def ordinary (_ : World) (e : Event) : Prop :=
  e.isOrdinary

/-- Bare transitions and effects as well, and calls on the transaction alone. -/
def anything (_ : World) (_ : Event) : Prop :=
  True

namespace Reached
variable {permitted permitted' : World → Event → Prop} {w : World}

/-- With more events permitted no world is lost. -/
theorem mono (h : Reached permitted w)
    (hp : ∀ v e, Reached permitted v → permitted v e → permitted' v e) : Reached permitted' w := by
  induction h with
  | fresh store ids options => exact .fresh store ids options
  | step hv he ih => exact ih.step (hp _ _ hv he)

/-- What is true of the options now was true of them all the time. -/
theorem with_options {P : Options → Prop} (h : Reached permitted w)
    (hw : P w.session.tx.options) :
    Reached (fun v e => permitted v e ∧ P v.session.tx.options) w := by
  induction h with
  | fresh store ids options => exact .fresh store ids options
  | @step v e _ he ih =>
    rw [World.next_options] at hw
    exact (ih hw).step ⟨he, hw⟩

/-- Permitted events lead from one world that can be reached to another. -/
theorem after {events : List Event} (h : Reached permitted w)
    (hp : ∀ past e, past ++ [e] <+: events → permitted (w.after past) e) :
    Reached permitted (w.after events) := by
  induction events generalizing w with
  | nil => exact h
  | cons e rest ih =>
    have he : permitted w e := hp [] e ⟨rest, rfl⟩
    refine ih (h.step he) ?_
    intro past e' hpre
    exact hp (e :: past) e' (List.cons_prefix_cons.mpr ⟨rfl, hpre⟩)

/-- Ordinary events lead to a world that can be reached by ordinary events. -/
theorem of_ordinary {events : List Event} (h : ∀ e ∈ events, e.isOrdinary) {store : Store}
    {ids : IdSource} {options : Options} :
    Reached ordinary ((World.fresh store ids options).after events) := by
  refine Reached.after (.fresh store ids options) ?_
  intro past e hpre
  exact h e (hpre.subset (by simp))

/-- So do ordinary calls. -/
theorem run {calls : List Session.Call} (h : Reached ordinary w)
    (hc : ∀ c ∈ calls, c.isOrdinary) : Reached ordinary (w.run calls) := by
  rw [← World.after_calls]
  refine h.after ?_
  intro past e hpre
  obtain ⟨c, hmem, rfl⟩ := List.mem_map.mp (hpre.subset (by simp) : e ∈ calls.map Event.call)
  exact hc c hmem

end Reached

namespace Session

def Everywhere (I : Transaction → Store → Instance → Prop) (w : Store × Session) : Prop :=
  Holds w.2.tx (I w.2.tx) w

/-- What holds of all instances of a session is an invariant. -/
theorem Holds.everywhere {I : Transaction → Store → Instance → Prop} {tx : Transaction}
    {w : Store × Session} (h : Holds tx (I tx) w) : Everywhere I w := by
  have htx := h.tx
  subst htx
  exact h

/-- What survives every flush, and each transition of a commit, survives the commit. -/
theorem commit_keeps {P : Store → Instance → Prop} {w : Store × Session} (hP : Framed P)
    (ha : w.2.tx.active) (h : Everywhere (fun _ => P) w)
    (flushed : ∀ s o, P s o → P (o.flush s).after.1 (o.flush s).after.2)
    (applied : ∀ s o r, r = .retrieve true ∨ r = .detach ∨ r = .commit → P s o →
      P s (o.apply w.2.tx s r).after) :
    Everywhere (fun _ => P) (commit w).after := by
  have hm := commit_meets (T := P) (Q := P) hP hP hP h ha
    (fun s o _ ho => Outcome.meets_self.mpr (flushed s o ho)) (fun _ _ _ ho => ho)
    (fun s o r hr ho => applied s o r (hr.imp id .inl) ho)
    (fun s o _ ho => Outcome.meets_of_after (applied s o .commit (.inr (.inr rfl)) ho))
    fun _ _ _ ho => ho
  refine Outcome.meets_self.mp (hm.mono (fun _ hp => hp.everywhere) fun _ hp => ?_)
  exact Holds.everywhere (hp.mono fun _ _ ho => ho.elim id (Or.elim · id id))

/-- What survives the rollback of each instance survives that of the session. -/
theorem rollback_keeps {P : Store → Instance → Prop} {w : Store × Session} (hP : Framed P)
    (ha : w.2.tx.active) (h : Everywhere (fun _ => P) w)
    (undone : ∀ s o, P s o → P s (o.apply w.2.tx s .rollback).after) :
    Everywhere (fun _ => P) (rollback w).after := by
  have hm := rollback_meets (Q := P) hP hP h ha
    (fun s o _ ho => Outcome.meets_of_after (undone s o ho)) fun _ _ _ ho => ho
  refine Outcome.meets_self.mp (hm.mono (fun _ hp => hp.everywhere) fun _ hp => ?_)
  exact Holds.everywhere (hp.mono fun _ _ ho => ho.elim id id)

end Session

open Session (Everywhere Holds)

/-- An invariant of managed instances, given one that is known already: it is built in by every way
to manage an instance and kept by every kind of event. -/
structure Kept (permitted : World → Event → Prop)
    (known I : Transaction → Store → Instance → Prop) : Prop where
  ordinary : ∀ {w e}, permitted w e → e.isOrdinary
  framed : ∀ tx, Framed (I tx)
  foreign : ∀ {w store o}, permitted w (.foreign store) → I w.session.tx w.store o →
    I w.session.tx store o
  persisted : ∀ {w schema values o}, permitted w (.call (.persist schema values)) →
    Instance.create w.ids.peek schema values = .ok o →
    I w.session.tx w.store (o.apply w.session.tx w.store .makePersistent).after
  found : ∀ {tx store id schema o}, Instance.hollow store id schema = .ok o → I tx store o
  called : ∀ {w id c o}, permitted w (.call (.object id c)) → w.session.object id = .ok o →
    known w.session.tx w.store o → I w.session.tx w.store o →
    I w.session.tx (o.call w.session.tx c w.store).after.1 (o.call w.session.tx c w.store).after.2
  evicted : ∀ {tx store o}, I tx store o → I tx store (o.apply tx store .evict).after
  begun : ∀ {tx tx' store o}, tx.begin = .ok tx' → I tx store o →
    I tx' store (o.apply tx' store .begin).after
  committed : ∀ {w}, permitted w (.call .commit) → w.session.tx.active →
    Everywhere (fun tx s o => known tx s o ∧ I tx s o) w.pair →
    Everywhere I (Session.commit w.pair).after
  rolledBack : ∀ {w}, permitted w (.call .rollback) → w.session.tx.active →
    Everywhere (fun tx s o => known tx s o ∧ I tx s o) w.pair →
    Everywhere I (Session.rollback w.pair).after

namespace Kept
variable {permitted : World → Event → Prop} {known I : Transaction → Store → Instance → Prop}
  {w : World}

private theorem next_call (k : Kept permitted known I) {c : Session.Call}
    (hc : permitted w (.call c)) (hk : ∀ o ∈ w.session.objects, known w.session.tx w.store o)
    (h : Everywhere I w.pair) : Everywhere I (w.call c).after.pair := by
  have hboth : Everywhere (fun tx s o => known tx s o ∧ I tx s o) w.pair :=
    h.mono fun o ho hi => ⟨hk o ho, hi⟩
  cases c with
  | begin =>
    have hm := Session.begin_meets (Q := I) (k.framed _) k.framed h
      fun tx' s o hb ho => k.begun hb ho
    refine Outcome.meets_self.mp (hm.mono ?_ fun p hp => hp.everywhere)
    rintro p ⟨tx', _, hp⟩
    exact hp.everywhere
  | commit =>
    cases ha : w.session.tx.active with
    | true => exact k.committed hc ha hboth
    | false =>
      change Everywhere I (Session.commit w.pair).after
      rw [Session.commit_of_inactive (w := w.pair) ha]
      exact h
  | rollback =>
    cases ha : w.session.tx.active with
    | true => exact k.rolledBack hc ha hboth
    | false =>
      change Everywhere I (Session.rollback w.pair).after
      rw [Session.rollback_of_inactive (w := w.pair) ha]
      exact h
  | persist schema values =>
    rw [World.call_persist]
    exact (Outcome.meets_self.mp
      (Session.persist_meets (k.framed _) h fun o ho => k.persisted hc ho)).everywhere
  | find schema id =>
    exact (Outcome.meets_self.mp
      (Session.find_meets (k.framed _) h fun o ho => k.found ho)).everywhere
  | evictAll =>
    exact (Outcome.meets_self.mp
      (Session.evictAll_meets (k.framed _) h fun s o ho => k.evicted ho)).everywhere
  | object id c =>
    change Everywhere I (w.onObject id c).after.pair
    rw [World.onObject]
    cases ho : w.session.object id with
    | error f => exact h
    | ok o =>
      obtain ⟨hmem, hid, hi⟩ := h.object ho
      have hown := Instance.call_own w.session.tx w.store o
        (k.ordinary hc : c.isOrdinary)
      have hi' := k.called hc ho (hk o hmem) hi
      refine (Holds.manage h (k.framed _) ?_ hi').everywhere
      intro other hother
      exact hown.other other (by rw [← hown.id]; exact hother)
  | beginTransaction => cases k.ordinary hc
  | finishTransaction => cases k.ordinary hc

/-- The invariant holds in every world that is reached. -/
theorem everywhere (k : Kept permitted known I)
    (hk : ∀ {w}, Reached permitted w → ∀ o ∈ w.session.objects, known w.session.tx w.store o)
    (h : Reached permitted w) : Everywhere I w.pair := by
  induction h with
  | fresh store ids options =>
    refine ⟨rfl, List.Pairwise.nil, ?_⟩
    intro o ho
    cases ho
  | @step w e h he ih =>
    cases e with
    | call c => exact k.next_call he (hk h) ih
    | foreign store => exact ⟨ih.tx, ih.sorted, fun o ho => k.foreign (w := w) he (ih.each o ho)⟩

end Kept

/-- A property of the instance alone, that holds of new and of hollow instances and is kept by every
piece of work. -/
structure KeptByWork (J : Instance → Prop) : Prop where
  created : ∀ {id schema values o}, Instance.create id schema values = .ok o → J o
  found : ∀ {store id schema o}, Instance.hollow store id schema = .ok o → J o
  applied : ∀ {tx store r o}, J o → J (o.apply tx store r).after
  loaded : ∀ {store o o' n}, o.load store (fun m _ => m = n) = .ok o' → J o → J o'
  written : ∀ {o n v}, J o → J { o with cache := o.cache.put n (.written v) }
  flushed : ∀ {o}, J o → J { o with cache := o.cache.clearDirty }
  planned : ∀ {o plan}, J o → J { o with plan }

namespace KeptByWork
variable {J : Instance → Prop} {tx : Transaction} {store : Store} {o : Instance}

private theorem flush (k : KeptByWork J) (h : J o) : J (o.flush store).after.2 :=
  Instance.flush_kept (P := fun _ a => J a) h fun _ _ _ => k.flushed h

private theorem call (k : KeptByWork J) {c : Instance.Call} (hc : c.isOrdinary) (h : J o) :
    J (o.call tx c store).after.2 := by
  refine Instance.call_kept (P := fun _ a => J a) hc (fun _ _ _ _ => k.applied)
    (fun _ hl => k.loaded hl) ?_ (fun _ => k.flush) ?_ (fun _ => k.planned) h
  · intro field v n _ _ h
    exact Instance.writeField_kept (P := J) h (k.applied h) fun _ _ _ _ => k.written
  · intro h
    exact Instance.detach_kept (P := fun _ a => J a) (T := fun _ a => J a) h
      (fun _ => Outcome.meets_self.mpr (k.flush h)) (fun _ => h) fun _ _ => k.applied

private theorem kept (k : KeptByWork J) : Kept ordinary (fun _ _ _ => True) fun _ _ => J where
  ordinary he := he
  framed _ _ _ _ _ h := h
  foreign _ h := h
  persisted _ hc := k.applied (k.created hc)
  found hf := k.found hf
  called hp _ _ h := k.call hp h
  evicted h := k.applied h
  begun _ h := k.applied h
  committed _ ha h := Session.commit_keeps (P := fun _ => J) (fun _ _ _ _ h => h) ha
    (h.mono fun _ _ ho => ho.2) (fun _ _ ho => k.flush ho) fun _ _ _ _ ho => k.applied ho
  rolledBack _ ha h := Session.rollback_keeps (P := fun _ => J) (fun _ _ _ _ h => h) ha
    (h.mono fun _ _ ho => ho.2) fun _ _ ho => k.applied ho

/-- The property holds of every managed instance. -/
theorem everywhere (k : KeptByWork J) {w : World} (h : Reached ordinary w) :
    Session.Everywhere (fun _ _ => J) w.pair :=
  k.kept.everywhere (fun _ _ _ => trivial) h

section
variable (performed : ∀ {store : Store} {e : Effect} {o o' : Instance},
  o.perform store e = .ok o' → J o → J o')
include performed

/-- What a bare effect keeps is kept by every call. -/
theorem every_call (k : KeptByWork J) (c : Instance.Call) (h : J o) :
    J (o.call tx c store).after.2 := by
  cases hc : c.isOrdinary with
  | true => exact k.call hc h
  | false =>
    cases c with
    | apply r => exact k.applied h
    | perform e =>
      change J (Outcome.change o (o.perform store e)).after
      cases hp : o.perform store e with
      | ok o' => exact performed hp h
      | error f => exact h
    | _ => cases hc

/-- The property holds of every managed instance, whatever is done to the session. -/
theorem everywhere_of_anything (k : KeptByWork J) {w : World} (h : Reached anything w) :
    Session.Everywhere (fun _ _ => J) w.pair := by
  induction h with
  | fresh store ids options =>
    refine ⟨rfl, List.Pairwise.nil, ?_⟩
    intro o ho
    cases ho
  | @step w e _ _ ih =>
    cases e with
    | foreign store => exact ⟨ih.tx, ih.sorted, ih.each⟩
    | call c =>
      cases hc : c.isOrdinary with
      | true => exact k.kept.next_call hc (fun _ _ => trivial) ih
      | false =>
        cases c with
        | object id c =>
          change Everywhere _ (w.onObject id c).after.pair
          rw [World.onObject]
          cases ho : w.session.object id with
          | error f => exact ih
          | ok o =>
            -- a bare call leaves the store alone
            have hstore : (o.call w.session.tx c w.store).after.1 = w.store := by
              cases c <;> first | rfl | cases hc
            refine (Holds.manage ih (fun _ _ _ _ h => h) ?_
              (k.every_call performed c (ih.object ho).2.2)).everywhere
            intro other _
            exact congrArg (·.row? other) hstore
        | beginTransaction =>
          change Everywhere _ (w.onTransaction Transaction.begin).after.pair
          rw [World.onTransaction]
          split
          · exact ⟨rfl, ih.sorted, ih.each⟩
          · exact ih
        | finishTransaction =>
          change Everywhere _ (w.onTransaction Transaction.finish).after.pair
          rw [World.onTransaction]
          split
          · exact ⟨rfl, ih.sorted, ih.each⟩
          · exact ih
        | _ => cases hc

end

end KeptByWork

namespace Sample

def account : Schema := ⟨"Account", .application, [.key "number", .plain "balance"]⟩

def first : ObjectId := IdSource.counting.stream 0

def second : ObjectId := IdSource.counting.stream 1

def third : ObjectId := IdSource.counting.stream 2

def run (options : Options) (calls : List Session.Call) : World :=
  (World.fresh .empty .counting options).after (calls.map .call)

/-- The samples are ordinary runs. -/
theorem reached_run {options : Options} {calls : List Session.Call}
    (h : ∀ c ∈ calls, c.isOrdinary) : Reached ordinary (run options calls) := by
  rw [run, World.after_calls]
  exact (Reached.fresh .empty .counting options).run h

end Sample

end Lifecycle
