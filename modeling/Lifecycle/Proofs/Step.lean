import Lifecycle.Proofs.Fields

/-! One transition of an instance, taken apart: refused, broken off by a load, or work on the fields
followed by a crossing. Everything that is proved about transitions goes through this. -/
namespace Lifecycle.Instance
open Move
variable {tx : Transaction} {store : Store} {r : Request} {o : Instance}

/-- The instance in another state, enlisted, evicted and released as the crossing requires. -/
def enter (t : State) (o : Instance) : Instance :=
  if t = o.state then o
  else
    { o with
      state := t
      enlisted :=
        if o.state.isTransactional = t.isTransactional ∧ o.state ≠ .nontransactionalDirty then
          o.enlisted
        else t.isTransactional
      connected := o.connected && t ≠ .transient
      cache := if t = .transient then o.cache.markAllLoaded else o.cache }

theorem enter_id (t : State) : (o.enter t).id = o.id := by
  rw [enter]
  split <;> rfl

theorem enter_schema (t : State) : (o.enter t).schema = o.schema := by
  rw [enter]
  split <;> rfl

theorem enter_plan (t : State) : (o.enter t).plan = o.plan := by
  rw [enter]
  split <;> rfl

theorem enter_state (t : State) : (o.enter t).state = t := by
  rw [enter]
  split
  · next h => exact h.symm
  · rfl

/-- Unless the instance is released, its fields stay as they are. -/
theorem enter_cache {t : State} (h : t ≠ .transient) : (o.enter t).cache = o.cache := by
  rw [enter]
  by_cases ht : t = o.state
  · rw [if_pos ht]
  · rw [if_neg ht]
    exact if_neg h

/-- Whoever is not let go on the way is managed as before, with the same fields. -/
theorem enter_kept {t : State} (h : t = .transient → o.state = .transient) :
    (o.enter t).connected = o.connected ∧ (o.enter t).cache = o.cache := by
  rw [enter]
  split
  · exact ⟨rfl, rfl⟩
  · next hne =>
    have ht : t ≠ .transient := fun heq => hne (heq.trans (h heq).symm)
    simp [ht]

/-- Whoever is released is taken for fully loaded. -/
theorem enter_transient (h : o.state ≠ .transient) :
    (o.enter .transient).cache = o.cache.markAllLoaded := by
  rw [enter, if_neg h.symm]
  rfl

private theorem performAll_crossing {t : State} (h : t ≠ o.state) :
    performAll store (crossing o.state t) o = .done { o.enter t with state := o.state } () := by
  obtain ⟨id, schema, plan, cache, state, enlisted, connected⟩ := o
  simp only at h ⊢
  cases state <;> cases t <;> first
    | exact absurd rfl h
    | simp [crossing, performAll, perform, enter, Outcome.done, State.isTransactional]

/-- A granted move: the work on the fields, then the crossing. -/
theorem apply_of_regular {m : Move} (h : transition tx o.schema.identity r o.state = .ok m)
    (hm : m.Regular o.state) :
    o.apply tx store r = (performAll store m.onFields o).andThen fun o' _ =>
      .done (o'.enter m.next) m.next := by
  have hf : ∀ e ∈ m.onFields, e.isCrossing = false := fun _ he => isCrossing_of_mem_onFields he
  have hw := performAll_frame store o hf
  simp only [apply, h]
  rw [hm, performAll_append]
  cases hp : performAll store m.onFields o with
  | mk o' answer =>
    rw [hp] at hw
    simp only at hw
    cases answer with
    | error f => rfl
    | ok u =>
      simp only [Outcome.andThen]
      have hs : o'.state = o.state := by rw [hw]
      by_cases hn : m.next = o.state
      · simp only [hn, ↓reduceIte, performAll, Outcome.done, enter, hs]
        rw [← hs]
      · rw [if_neg hn, ← hs, performAll_crossing (by rw [hs]; exact hn)]
        simp [Outcome.done, enter, hs, hn]

/-- What a request can lead to, unless it is the one at the beginning of a transaction. -/
theorem apply_cases (tx : Transaction) (store : Store) (o : Instance) (hr : r ≠ .begin) :
    (∃ f, o.apply tx store r = .failed o f) ∨
    ∃ m cache, transition tx o.schema.identity r o.state = .ok m ∧ m.Regular o.state ∧
      ((∃ f, performAll store m.onFields o = .failed { o with cache } f ∧
          o.apply tx store r = .failed { o with cache } f) ∨
        performAll store m.onFields o = .done { o with cache } () ∧
          o.apply tx store r = .done (enter m.next { o with cache }) m.next) := by
  cases ht : transition tx o.schema.identity r o.state with
  | error refusal =>
    refine .inl ⟨refusal.failure o.id o.state r.operation, ?_⟩
    rw [apply, ht]
  | ok m =>
    have hm := transition_regular hr m ht
    have hf : ∀ e ∈ m.onFields, e.isCrossing = false := fun _ he => isCrossing_of_mem_onFields he
    have hw := performAll_frame store o hf
    rw [apply_of_regular ht hm]
    cases hp : performAll store m.onFields o with
    | mk o' answer =>
      rw [hp] at hw
      have ho' : o' = { o with cache := o'.cache } := hw
      refine .inr ⟨m, o'.cache, rfl, hm, ?_⟩
      rw [← ho']
      cases answer with
      | error f => exact .inl ⟨f, hp, rfl⟩
      | ok u => exact .inr ⟨hp, rfl⟩

/-- A request that succeeds leads where its move does. -/
theorem apply_next {s : State} (hr : r ≠ .begin) (h : (o.apply tx store r).answer = .ok s) :
    ∃ m, transition tx o.schema.identity r o.state = .ok m ∧
      (o.apply tx store r).after.state = m.next := by
  rcases apply_cases tx store o hr with
    ⟨f, ha⟩ | ⟨m, cache, hm, _, ⟨f, _, ha⟩ | ⟨_, ha⟩⟩
  · rw [ha] at h
    cases h
  · rw [ha] at h
    cases h
  · rw [ha]
    exact ⟨m, hm, enter_state _⟩

/-- A request that succeeds has made the move of the table. -/
theorem apply_done {o' : Instance} {s : State} (hr : r ≠ .begin)
    (h : o.apply tx store r = .done o' s) :
    ∃ m, transition tx o.schema.identity r o.state = .ok m ∧ o'.state = m.next := by
  obtain ⟨m, hm, hnext⟩ := apply_next hr (congrArg (·.answer) h)
  exact ⟨m, hm, (congrArg (·.after.state) h).symm.trans hnext⟩

/-- A move that does nothing does nothing. -/
theorem apply_of_idle {m : Move} (hm : transition tx o.schema.identity r o.state = .ok m)
    (he : m.effects = []) (hn : m.next = o.state) : o.apply tx store r = .done o o.state := by
  simp only [apply, hm, he, hn]
  rfl

/-- A request that is answered with a crossing, without the table. -/
theorem apply_of_enter {fields : List Effect} {t : State}
    (h : transition tx o.schema.identity r o.state = Move.enter fields o.state t)
    (hf : fields.all fun e => !e.isCrossing) (ht : t ≠ o.state) :
    o.apply tx store r = (performAll store fields o).andThen fun o' _ => .done (o'.enter t) t := by
  rw [apply_of_regular h (regular_enter hf (.inr ht) _ rfl), onFields_enter hf]

/-- What every effect keeps, in whatever state, every request keeps. -/
theorem apply_kept {P : Instance → Prop}
    (hP : ∀ e a a', a.perform store e = .ok a' → P a → P a')
    (hs : ∀ a s, P a → P { a with state := s }) (h : P o) : P (o.apply tx store r).after := by
  rw [apply]
  split
  · exact h
  · next m _ =>
    have hw : P (performAll store m.effects o).after := performAll_kept (fun e _ => hP e) h
    generalize performAll store m.effects o = a at hw
    obtain ⟨o', answer⟩ := a
    cases answer with
    | ok u => exact hs o' m.next hw
    | error f => exact hw

/-- What the effects of a move keep is kept by its request, and the state is the one before or the
one it leads to. -/
theorem apply_along (tx : Transaction) (store : Store) {S : State → Prop} {P : Instance → Prop}
    {p : Effect → Bool}
    (hm : (transition tx o.schema.identity r o.state).Allows fun m =>
      S m.next ∧ m.effects.all p = true)
    (hP : ∀ e a a', p e = true → a.perform store e = .ok a' → P a → P a')
    (hs : ∀ a s, P a → P { a with state := s }) (hstate : S o.state) (h : P o) :
    S (o.apply tx store r).after.state ∧ P (o.apply tx store r).after := by
  rw [apply]
  split
  · exact ⟨hstate, h⟩
  · next m hgranted =>
    obtain ⟨hnext, heffects⟩ := hm m hgranted
    have hw : (performAll store m.effects o).after.state = o.state ∧
        P (performAll store m.effects o).after := by
      refine performAll_kept (P := fun a => a.state = o.state ∧ P a) ?_ ⟨rfl, h⟩
      intro e he a a' hp ha
      exact ⟨(perform_state hp).trans ha.1, hP e a a' (List.all_eq_true.mp heffects e he) hp ha.2⟩
    generalize performAll store m.effects o = a at hw
    obtain ⟨o', answer⟩ := a
    cases answer with
    | ok u => exact ⟨hnext, hs o' m.next hw.2⟩
    | error f => exact ⟨hw.1 ▸ hstate, hw.2⟩

/-- Detaching leaves the fields as they are. -/
theorem apply_detach (tx : Transaction) (store : Store) (hp : o.state.isPersistent)
    (hd : o.state.isDeleted = false) :
    o.apply tx store .detach = .done (o.enter .detachedClean) .detachedClean := by
  have hne : State.detachedClean ≠ o.state := by
    intro hs
    rw [← hs] at hp
    cases hp
  rw [apply_of_enter (detach_granted tx _ hp hd) rfl hne]
  rfl

/-- The beginning of a transaction reaches only changes that were made outside of any. -/
theorem apply_begin :
    o.apply tx store .begin =
      if o.state = .nontransactionalDirty then
        .done { o with cache := o.cache.save, enlisted := true } .nontransactionalDirty
      else .done o o.state := by
  obtain ⟨id, schema, plan, cache, state, enlisted, connected⟩ := o
  cases state <;> rfl

/-- Where rollback leads an instance that stays with its row: back to the snapshot, or to nothing
but its key. -/
theorem apply_rollback (h : o.state.survivesRollback) :
    o.apply tx store .rollback =
      if tx.options.restoreValues then
        .done ({ o with cache := o.cache.restore }.enter .nontransactional) .nontransactional
      else
        .done ({ o with cache := (o.cache.unload fun n => !o.schema.isPrimaryKey n).clearSaved
          }.enter .hollow) .hollow := by
  have ht : transition tx o.schema.identity .rollback o.state =
      if tx.options.restoreValues then Move.enter [.restoreFields] o.state .nontransactional
      else Move.enter [.clearNonPrimaryKeyFields, .clearSavedFields] o.state .hollow := by
    revert h
    cases o.state <;> simp [State.survivesRollback, transition, Transition.rollback]
  split at ht <;> rename_i hb
  · have hs : State.nontransactional ≠ o.state := by
      intro hs
      rw [← hs] at h
      cases h
    rw [apply_of_enter ht rfl hs, if_pos hb]
    rfl
  · have hs : State.hollow ≠ o.state := by
      intro hs
      rw [← hs] at h
      cases h
    rw [apply_of_enter ht rfl hs, if_neg hb]
    rfl

/-- Where no row is needed nothing fails but by being refused. -/
theorem apply_ok_of_loadless (store : Store) {m : Move}
    (hm : transition tx o.schema.identity r o.state = .ok m)
    (hl : ∀ e ∈ m.effects, e.isLoad = false) : ∃ s, (o.apply tx store r).answer = .ok s := by
  have hp := performAll_ok store o hl
  simp only [apply, hm, Outcome.andThen, hp]
  exact ⟨_, rfl⟩

/-- Whoever can take part in a transaction can see its end. -/
theorem apply_end_ok (tx : Transaction) (store : Store) (hr : r = .commit ∨ r = .rollback)
    (hh : o.state ≠ .hollow) (hn : o.state ≠ .nontransactional) :
    ∃ s, (o.apply tx store r).answer = .ok s := by
  obtain ⟨m, hm, hl⟩ := end_loads_nothing tx o.schema.identity hr hh hn
  exact apply_ok_of_loadless store hm hl

/-- Retrieving leads to no deletion and out of none, and to no persistence and out of none. -/
theorem apply_retrieve_state (tx : Transaction) (store : Store) (fetchPlanOnly : Bool)
    (o : Instance) :
    (o.apply tx store (.retrieve fetchPlanOnly)).after.state.isPersistent = o.state.isPersistent ∧
      (o.apply tx store (.retrieve fetchPlanOnly)).after.state.isDeleted = o.state.isDeleted := by
  rcases apply_cases (r := .retrieve fetchPlanOnly) tx store o (by simp) with
    ⟨f, h⟩ | ⟨m, cache, hm, _, ⟨f, _, h⟩ | ⟨_, h⟩⟩
  · rw [h]
    exact ⟨rfl, rfl⟩
  · rw [h]
    exact ⟨rfl, rfl⟩
  · rw [h]
    simp only [Outcome.done, enter_state]
    exact retrieve_next m hm

/-- No transition moves an instance to another identity or class. -/
theorem apply_frame (tx : Transaction) (store : Store) (r : Request) (o : Instance) :
    (o.apply tx store r).after.id = o.id ∧ (o.apply tx store r).after.schema = o.schema := by
  by_cases hr : r = .begin
  · subst hr
    rw [apply_begin]
    split <;> exact ⟨rfl, rfl⟩
  rcases apply_cases tx store o hr with
    ⟨f, h⟩ | ⟨m, cache, _, _, ⟨f, _, h⟩ | ⟨_, h⟩⟩
  · rw [h]
    exact ⟨rfl, rfl⟩
  · rw [h]
    exact ⟨rfl, rfl⟩
  · rw [h]
    exact ⟨enter_id _, enter_schema _⟩

end Lifecycle.Instance
