import Mathlib.Data.List.TakeDrop
import Mathlib.Data.List.TakeWhile
import Lifecycle.Proofs.Failures
import Lifecycle.Proofs.History
import Lifecycle.Transition

/-! What a recorder foretells. The effects it writes down, carried out on an instance in that order,
are what the request does to the instance, and it meets every refusal; only a missing row is
beyond it. -/
namespace Lifecycle

namespace Failure

def retold (object : ObjectId) : Failure → Failure
  | illegalTransition _ state operation => .illegalTransition object state operation
  | notReadable _ state reason => .notReadable object state reason
  | notWritable _ state reason => .notWritable object state reason
  | invalidOperation _ state operation reason => .invalidOperation object state operation reason
  | objectNotFound _ => .objectNotFound object
  | duplicateObject _ => .duplicateObject object
  | f => f

def operation? : Failure → Option Operation
  | illegalTransition _ _ operation | invalidOperation _ _ operation _ => some operation
  | _ => none

/-- The same kind of failure, of the same operation in the same state. -/
def Alike (f g : Failure) : Prop :=
  f.kind = g.kind ∧ f.state? = g.state? ∧ f.operation? = g.operation?

instance (f g : Failure) : Decidable (f.Alike g) :=
  inferInstanceAs (Decidable (_ ∧ _ ∧ _))

private theorem retold_alike (f : Failure) (object : ObjectId) : (f.retold object).Alike f := by
  cases f <;> exact ⟨rfl, rfl, rfl⟩

end Failure

private theorem Refusal.failure_retold (refusal : Refusal) (object other : ObjectId) (state : State)
    (operation : Operation) :
    (refusal.failure object state operation).retold other =
      refusal.failure other state operation := by
  cases refusal <;> rfl

namespace Instance
variable {store : Store} {o o' : Instance} {f : Failure}

private theorem performAll_failed {es : List Effect} (h : performAll store es o = .failed o' f) :
    ∃ before e after, es = before ++ e :: after ∧ performAll store before o = .done o' () ∧
      o'.perform store e = .error f := by
  induction es generalizing o with
  | nil => cases h
  | cons e es ih =>
    rw [performAll_cons] at h
    cases hp : o.perform store e with
    | ok a =>
      rw [hp] at h
      obtain ⟨before, e', after, rfl, hbefore, he'⟩ := ih h
      refine ⟨e :: before, e', after, rfl, ?_, he'⟩
      rw [performAll_cons, hp]
      exact hbefore
    | error f' =>
      rw [hp] at h
      cases h
      exact ⟨[], e, es, rfl, rfl, hp⟩

end Instance

namespace Recorder
variable {r : Recorder} {store : Store} {request : Request} {o : Instance}

private theorem record_of_loading (hl : r.failingLoads = false) (effects : List Effect) :
    r.record effects = .done { r with calls := r.calls ++ effects } () := by
  have hspan : (effects.span fun e => !(r.failingLoads && e.isLoad)) = (effects, []) := by
    simp [hl, List.span_eq_takeWhile_dropWhile, List.takeWhile_eq_self_iff]
  rw [record, hspan]
  rfl

/-- As long as loads succeed, a recorder refuses what the table refuses and writes down the rest. -/
theorem apply_of_loading (hl : r.failingLoads = false) (request : Request) (s : State) :
    r.apply request s = match transition r.tx r.schema.identity request s with
      | .error refusal => .failed r (refusal.failure r.object s request.operation)
      | .ok m => .done { r with calls := r.calls ++ m.effects } m.next := by
  rw [apply]
  cases transition r.tx r.schema.identity request s with
  | error refusal => rfl
  | ok m =>
    simp only [record_of_loading hl]
    rfl

/-- What a recorder tells about a request to an instance. -/
structure Foretells (r : Recorder) (store : Store) (request : Request) (o : Instance) : Prop where
  /-- A request that succeeds does what was recorded, in that order, and enters the state that was
  foretold. -/
  done : ∀ o' s, o.apply r.tx store request = .done o' s →
    ∃ effects a, r.apply request o.state = .done { r with calls := r.calls ++ effects } s ∧
      o.performAll store effects = .done a () ∧ o' = { a with state := s }
  /-- What fails on the recorder fails alike on the instance, and changes nothing. -/
  refused : ∀ r' f, r.apply request o.state = .failed r' f →
    r' = r ∧ o.apply r.tx store request = .failed o (f.retold o.id) ∧ (f.retold o.id).Alike f
  /-- What fails on the instance alone is a load for want of the row, after the effects that were
  recorded before it. -/
  missing : ∀ o' g r' s, o.apply r.tx store request = .failed o' g →
    r.apply request o.state = .done r' s →
    g = .objectNotFound o.id ∧ store.row? o.id = none ∧
      ∃ before load after, r'.calls = r.calls ++ (before ++ load :: after) ∧ load.isLoad = true ∧
        o.performAll store before = .done o' () ∧ o'.perform store load = .error g

/-- A recorder of the same class and transaction, in which no load fails, foretells every request
to every instance. -/
theorem foretells_of_loading (hs : r.schema = o.schema) (hl : r.failingLoads = false)
    (store : Store) (request : Request) : r.Foretells store request o := by
  have hrec := apply_of_loading hl request o.state
  rcases Instance.apply_steps r.tx store request o with
    ⟨refusal, ht, hap⟩ | ⟨m, a, ht, ⟨g, hwork, hap⟩ | ⟨hwork, hap⟩⟩ <;>
    (rw [← hs] at ht; simp only [ht] at hrec)
  · -- each tells the refusal of its own object
    refine ⟨fun _ _ h => ?_, fun _ _ h => ?_, fun _ _ _ _ _ h => ?_⟩
    · rw [hap] at h
      cases h
    · rw [hrec] at h
      cases h
      refine ⟨rfl, ?_, Failure.retold_alike _ _⟩
      rw [hap, refusal.failure_retold]
    · rw [hrec] at h
      cases h
  · refine ⟨fun _ _ h => ?_, fun _ _ h => ?_, fun _ _ _ _ h h' => ?_⟩
    · rw [hap] at h
      cases h
    · rw [hrec] at h
      cases h
    · rw [hap] at h
      rw [hrec] at h'
      cases h
      cases h'
      obtain ⟨_, hrow, hg⟩ := Instance.performAll_error (congrArg (·.answer) hwork)
      obtain ⟨before, load, after, hsplit, hbefore, hload⟩ := Instance.performAll_failed hwork
      exact ⟨hg, hrow, before, load, after, by rw [hsplit], (Instance.perform_error hload).1,
        hbefore, hload⟩
  · refine ⟨fun _ _ h => ?_, fun _ _ h => ?_, fun _ _ _ _ h _ => ?_⟩
    · rw [hap] at h
      cases h
      exact ⟨m.effects, a, hrec, hwork, rfl⟩
    · rw [hrec] at h
      cases h
    · rw [hap] at h
      cases h

/-- Values cached before a locking transaction are saved and read again. The row is gone by then,
which the recorder cannot know. -/
theorem foretells_of_loading_missingRow :
    let o : Instance := ⟨Sample.first, Sample.account, .standard,
      .ofValues [.text "A-1", .integer 10], .nontransactional, false, true⟩
    let r : Recorder := ⟨Sample.second, Sample.account, .opened .standard, false, []⟩
    r.schema = o.schema ∧ r.failingLoads = false ∧
      o.apply r.tx .empty (.readField true) =
        .failed { o with cache := o.cache.save } (.objectNotFound Sample.first) ∧
      r.apply (.readField true) o.state =
        .done { r with calls := [.saveFields, .refreshLoadedFields, .enlist] } .persistentClean ∧
      r.Foretells .empty (.readField true) o :=
  ⟨rfl, rfl, rfl, rfl, foretells_of_loading rfl rfl .empty (.readField true)⟩

end Recorder

end Lifecycle
