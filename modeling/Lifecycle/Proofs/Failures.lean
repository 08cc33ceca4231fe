import Lifecycle.Proofs.Access

/-! What can go wrong with an instance. A state refuses a request, or the store has no row where one
is needed, or has one where none may be; nothing else happens, and a refusal is never told as a
failure of the store. -/
namespace Lifecycle

namespace Failure

/-- A row is missing, or one is there already. -/
def isStorage : Failure → Bool
  | objectNotFound _ | duplicateObject _ => true
  | _ => false

/-- Of the store there are two failures. -/
theorem isStorage_iff {f : Failure} :
    f.isStorage = true ↔ ∃ id, f = .objectNotFound id ∨ f = .duplicateObject id := by
  cases f <;> simp [isStorage]

end Failure

/-- A refusal is no failure of the store. -/
theorem Refusal.failure_isStorage (refusal : Refusal) (object : ObjectId) (state : State)
    (operation : Operation) : (refusal.failure object state operation).isStorage = false := by
  cases refusal <;> rfl

/-- The only thing to be said against the name of a field is that the class does not know it. -/
theorem FieldRef.resolve_error {schema : Schema} {field : FieldRef} {f : Failure}
    (h : field.resolve schema = .error f) : f.isStorage = false := by
  cases field with
  | number n => cases h
  | name s =>
    obtain ⟨rfl, -⟩ := Schema.requireField_eq_error_iff.mp h
    rfl

namespace Instance
variable {tx : Transaction} {store : Store} {r : Request} {o o' : Instance} {f : Failure}

/-- A load fails only for want of the row. -/
theorem load_error {selected : Nat → Slot → Bool} (h : o.load store selected = .error f) :
    store.row? o.id = none ∧ f = .objectNotFound o.id := by
  simp only [load, Store.fetch] at h
  split at h
  · cases h
  · cases hr : store.row? o.id with
    | some row =>
      rw [hr] at h
      cases h
    | none =>
      rw [hr] at h
      cases h
      exact ⟨rfl, rfl⟩

/-- Work on an instance fails only for want of its row. -/
theorem perform_error {e : Effect} (h : o.perform store e = .error f) :
    e.isLoad = true ∧ store.row? o.id = none ∧ f = .objectNotFound o.id := by
  cases e <;> simp only [perform, reduceCtorEq] at h
  case loadUnloadedFields | loadUnloadedFieldsInFetchPlan | loadUnloadedFieldsInPlan
      | refreshLoadedFields | refreshFieldsInFetchPlan =>
    exact ⟨rfl, load_error h⟩

theorem perform_id {e : Effect} (h : o.perform store e = .ok o') : o'.id = o.id := by
  cases hc : e.isCrossing with
  | false => rw [perform_frame hc h]
  | true =>
    cases e <;> simp only [Effect.isCrossing, reduceCtorEq] at hc <;> cases h <;> rfl

/-- Work fails only at a load, for want of the row. -/
theorem performAll_error {es : List Effect} (h : (performAll store es o).answer = .error f) :
    (∃ e ∈ es, e.isLoad = true) ∧ store.row? o.id = none ∧ f = .objectNotFound o.id := by
  induction es generalizing o with
  | nil => cases h
  | cons e es ih =>
    rw [performAll_cons] at h
    cases hp : o.perform store e with
    | ok o' =>
      rw [hp] at h
      obtain ⟨⟨a, ha, hl⟩, hrow, hf⟩ := ih h
      rw [perform_id hp] at hrow hf
      exact ⟨⟨a, List.mem_cons_of_mem e ha, hl⟩, hrow, hf⟩
    | error f' =>
      rw [hp] at h
      cases h
      obtain ⟨hl, hrow, hf⟩ := perform_error hp
      exact ⟨⟨e, List.mem_cons_self, hl⟩, hrow, hf⟩

/-- A request is refused, breaks off at a load, or enters its state after all its work. -/
theorem apply_steps (tx : Transaction) (store : Store) (r : Request) (o : Instance) :
    (∃ refusal, transition tx o.schema.identity r o.state = .error refusal ∧
      o.apply tx store r = .failed o (refusal.failure o.id o.state r.operation)) ∨
    ∃ m a, transition tx o.schema.identity r o.state = .ok m ∧
      ((∃ f, performAll store m.effects o = .failed a f ∧
          o.apply tx store r = .failed a f) ∨
        performAll store m.effects o = .done a () ∧
          o.apply tx store r = .done { a with state := m.next } m.next) := by
  cases ht : transition tx o.schema.identity r o.state with
  | error refusal => exact .inl ⟨refusal, rfl, by simp only [apply, ht]⟩
  | ok m =>
    cases hp : performAll store m.effects o with
    | mk a answer =>
      refine .inr ⟨m, a, rfl, ?_⟩
      cases answer with
      | error f =>
        refine .inl ⟨f, hp, ?_⟩
        simp only [apply, ht, hp]
        rfl
      | ok u =>
        refine .inr ⟨hp, ?_⟩
        simp only [apply, ht, hp]
        rfl

/-- A request fails because it is refused, or because a row to load from is missing. -/
theorem apply_error (h : (o.apply tx store r).answer = .error f) :
    (∃ refusal, transition tx o.schema.identity r o.state = .error refusal ∧
        f = refusal.failure o.id o.state r.operation) ∨
      ∃ m, transition tx o.schema.identity r o.state = .ok m ∧
        (∃ e ∈ m.effects, e.isLoad = true) ∧ store.row? o.id = none ∧
        f = .objectNotFound o.id := by
  rcases apply_steps tx store r o with
    ⟨refusal, ht, ha⟩ | ⟨m, a, ht, ⟨g, hwork, ha⟩ | ⟨_, ha⟩⟩ <;> rw [ha] at h <;> cases h
  · exact .inl ⟨refusal, ht, rfl⟩
  · exact .inr ⟨m, ht, performAll_error (congrArg (·.answer) hwork)⟩

/-- A granted request fails only by a failure of the store. -/
theorem apply_error_of_granted {m : Move} (hm : transition tx o.schema.identity r o.state = .ok m)
    (h : (o.apply tx store r).answer = .error f) : f = .objectNotFound o.id := by
  rcases apply_error h with ⟨refusal, ht, _⟩ | ⟨_, _, _, _, hf⟩
  · rw [hm] at ht
    cases ht
  · exact hf

/-- A field that cannot be supplied lacks its row, and nothing has happened. -/
theorem supply_error {n : Nat} (h : (o.supply store n).answer = .error f) :
    store.row? o.id = none ∧ f = .objectNotFound o.id ∧ (o.supply store n).after = o := by
  rw [supply] at h ⊢
  split
  · next hc =>
    rw [if_pos hc] at h
    cases hl : o.load store (fun m _ => m = n) with
    | ok o' =>
      rw [hl] at h
      cases h
    | error g =>
      rw [hl] at h
      cases h
      exact ⟨(load_error hl).1, (load_error hl).2, rfl⟩
  · next hc =>
    rw [if_neg hc] at h
    cases h

private theorem written_error (h : o.written store = .error f) : f.isStorage = true := by
  simp only [written, Store.insert, Store.delete, Store.update] at h
  repeat' split at h
  all_goals cases h
  all_goals rfl

/-- A flush fails only if the store fails it. -/
theorem flush_error (h : (o.flush store).answer = .error f) : f.isStorage = true := by
  cases hp : o.state.isPersistent with
  | false =>
    rw [flush_of_not_persistent hp] at h
    cases h
  | true =>
    rcases flush_cases store hp with ⟨f', hw, hf⟩ | ⟨s, _, hf⟩
    · rw [hf] at h
      cases h
      exact written_error hw
    · rw [hf] at h
      cases h

end Instance

end Lifecycle
