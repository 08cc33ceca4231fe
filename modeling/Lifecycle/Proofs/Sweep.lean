import Lifecycle.Proofs.Step
import Lifecycle.Session

/-! Reasoning about the visits of a session. A visit reaches one instance and its row, so what looks
at nothing else passes from the single visits to the whole sweep. -/
namespace Lifecycle

namespace Outcome
variable {σ τ α β : Type} {Q Q' E E' : σ → Prop}

def Meets (Q E : σ → Prop) (o : Outcome σ α) : Prop :=
  match o.answer with
  | .ok _ => Q o.after
  | .error _ => E o.after

/-- Both conditions may be weakened. -/
theorem Meets.mono {o : Outcome σ α} (h : o.Meets Q E) (hq : ∀ s, Q s → Q' s)
    (he : ∀ s, E s → E' s) : o.Meets Q' E' := by
  obtain ⟨s, answer⟩ := o
  cases answer with
  | ok a => exact hq s h
  | error f => exact he s h

/-- The second call starts where the first has succeeded. -/
theorem Meets.andThen {o : Outcome σ α} {next : σ → α → Outcome σ β} (h : o.Meets Q E)
    (hn : ∀ s a, Q s → (next s a).Meets Q' E) : (o.andThen next).Meets Q' E := by
  obtain ⟨s, answer⟩ := o
  cases answer with
  | ok a => exact hn s a h
  | error f => exact h

private theorem Meets.and_after {o : Outcome σ α} {X : σ → Prop} (h : o.Meets Q E)
    (hx : X o.after) :
    o.Meets (fun s => Q s ∧ X s) fun s => E s ∧ X s := by
  obtain ⟨s, answer⟩ := o
  cases answer with
  | ok a => exact ⟨h, hx⟩
  | error f => exact ⟨h, hx⟩

/-- A call that has failed meets the condition on failures. -/
theorem Meets.of_error {o : Outcome σ α} {f : Failure} (h : o.Meets Q E)
    (hf : o.answer = .error f) : E o.after := by
  obtain ⟨s, answer⟩ := o
  cases hf
  exact h

/-- What is answered does not matter. -/
theorem meets_map {o : Outcome σ α} {f : α → β} : (o.map f).Meets Q E ↔ o.Meets Q E := by
  obtain ⟨s, answer⟩ := o
  cases answer <;> exact Iff.rfl

theorem error_of_map {o : Outcome σ α} {g : α → β} {f : Failure}
    (h : (o.map g).answer = .error f) : o.answer = .error f := by
  obtain ⟨s, answer⟩ := o
  cases answer with
  | ok a => cases h
  | error f' =>
    cases h
    rfl

theorem ok_of_map {o : Outcome σ α} {g : α → β} {b : β} (h : (o.map g).answer = .ok b) :
    ∃ a, o.answer = .ok a ∧ g a = b := by
  obtain ⟨s, answer⟩ := o
  cases answer with
  | ok a =>
    cases h
    exact ⟨a, rfl, rfl⟩
  | error f => cases h

/-- If both calls succeed, each of them does. -/
theorem ok_of_andThen {o : Outcome σ α} {next : σ → α → Outcome σ β} {b : β}
    (h : (o.andThen next).answer = .ok b) :
    ∃ a, o.answer = .ok a ∧ (next o.after a).answer = .ok b := by
  obtain ⟨s, answer⟩ := o
  cases answer with
  | ok a => exact ⟨a, rfl, h⟩
  | error f => cases h

/-- The conditions are those on the part that the call works on. -/
theorem meets_within {o : Outcome σ α} {f : σ → τ} {Q E : τ → Prop} :
    (o.within f).Meets Q E ↔ o.Meets (fun s => Q (f s)) fun s => E (f s) := by
  obtain ⟨s, answer⟩ := o
  cases answer <;> exact Iff.rfl

theorem meets_self {o : Outcome σ α} : o.Meets Q Q ↔ Q o.after := by
  obtain ⟨s, answer⟩ := o
  cases answer <;> exact Iff.rfl

/-- Where the state after the call is known in any case. -/
theorem meets_of_after {o : Outcome σ α} (h : Q o.after) : o.Meets Q fun s => E s ∨ Q s :=
  (meets_self.mpr h).mono (fun _ h => h) fun _ => .inr

/-- A success ends in `Q`, and a failure is one of `F`, whatever it leaves behind. -/
def Yields (Q : σ → Prop) (F : Failure → Prop) (o : Outcome σ α) : Prop :=
  match o.answer with
  | .ok _ => Q o.after
  | .error f => F f

variable {F : Failure → Prop}

/-- The condition on success may be weakened. -/
theorem Yields.mono {o : Outcome σ α} (h : o.Yields Q F) (hq : ∀ s, Q s → Q' s) :
    o.Yields Q' F := by
  obtain ⟨s, answer⟩ := o
  cases answer with
  | ok a => exact hq s h
  | error f => exact h

/-- The second call starts where the first has succeeded. -/
theorem Yields.andThen {o : Outcome σ α} {next : σ → α → Outcome σ β} (h : o.Yields Q F)
    (hn : ∀ s a, Q s → (next s a).Yields Q' F) : (o.andThen next).Yields Q' F := by
  obtain ⟨s, answer⟩ := o
  cases answer with
  | ok a => exact hn s a h
  | error f => exact h

theorem Yields.and_after {o : Outcome σ α} {X : σ → Prop} (h : o.Yields Q F) (hx : X o.after) :
    o.Yields (fun s => Q s ∧ X s) F := by
  obtain ⟨s, answer⟩ := o
  cases answer with
  | ok a => exact ⟨h, hx⟩
  | error f => exact h

theorem Yields.of_ok {o : Outcome σ α} {a : α} (h : o.Yields Q F) (ha : o.answer = .ok a) :
    Q o.after := by
  obtain ⟨s, answer⟩ := o
  cases ha
  exact h

theorem Yields.of_error {o : Outcome σ α} {f : Failure} (h : o.Yields Q F)
    (hf : o.answer = .error f) : F f := by
  obtain ⟨s, answer⟩ := o
  cases hf
  exact h

/-- Where no failure is possible the state after the call is known in any case. -/
theorem Yields.meets {o : Outcome σ α} {E : σ → Prop} (h : o.Yields Q fun _ => False) :
    o.Meets Q E := by
  obtain ⟨s, answer⟩ := o
  cases answer with
  | ok a => exact h
  | error f => exact h.elim

/-- Where no failure is possible there is an answer. -/
theorem Yields.exists_ok {o : Outcome σ α} (h : o.Yields Q fun _ => False) :
    ∃ a, o.answer = .ok a := by
  obtain ⟨s, answer⟩ := o
  cases answer with
  | ok a => exact ⟨a, rfl⟩
  | error f => exact h.elim

theorem yields_of_ok {o : Outcome σ α} {a : α} (ha : o.answer = .ok a) (h : Q o.after) :
    o.Yields Q F := by
  obtain ⟨s, answer⟩ := o
  cases ha
  exact h

theorem yields_of_answer {o : Outcome σ α} (h : ∀ a, o.answer = .ok a → Q o.after)
    (hf : ∀ f, o.answer = .error f → F f) : o.Yields Q F := by
  obtain ⟨s, answer⟩ := o
  cases answer with
  | ok a => exact h a rfl
  | error f => exact hf f rfl

/-- Where the state after the call is known in any case, only its failures are left to be told. -/
theorem yields_of_after {o : Outcome σ α} (h : Q o.after) (hf : ∀ f, o.answer = .error f → F f) :
    o.Yields Q F :=
  yields_of_answer (fun _ _ => h) hf

theorem yields_map {o : Outcome σ α} {f : α → β} : (o.map f).Yields Q F ↔ o.Yields Q F := by
  obtain ⟨s, answer⟩ := o
  cases answer <;> exact Iff.rfl

theorem yields_within {o : Outcome σ α} {f : σ → τ} {Q : τ → Prop} :
    (o.within f).Yields Q F ↔ o.Yields (fun s => Q (f s)) F := by
  obtain ⟨s, answer⟩ := o
  cases answer <;> exact Iff.rfl

end Outcome

def Framed (P : Store → Instance → Prop) : Prop :=
  ∀ ⦃s t : Store⦄ ⦃o : Instance⦄, t.row? o.id = s.row? o.id → P s o → P t o

/-- What may come of an instance and the store when only that instance is worked on. -/
structure Own (store : Store) (o : Instance) (p : Store × Instance) : Prop where
  id : p.2.id = o.id
  other : ∀ id, id ≠ o.id → p.1.row? id = store.row? id

theorem Own.refl (store : Store) (o : Instance) : Own store o (store, o) :=
  ⟨rfl, fun _ _ => rfl⟩

/-- Two pieces of work on one instance are one. -/
theorem Own.trans {store : Store} {o : Instance} {p q : Store × Instance} (h : Own store o p)
    (h' : Own p.1 p.2 q) : Own store o q := by
  refine ⟨h'.id.trans h.id, ?_⟩
  intro id hid
  rw [h'.other id (by rw [h.id]; exact hid), h.other id hid]

/-- A visit that passes an instance by works on it, too. -/
theorem Own.ite {store : Store} {o : Instance} {c : Prop} [Decidable c]
    {v : Outcome (Store × Instance) Unit} (h : Own store o v.after) :
    Own store o (if c then v else .done (store, o) ()).after := by
  split
  · exact h
  · exact Own.refl store o

section
variable {visit : Store → Instance → Outcome (Store × Instance) Unit}
  {P Q : Store → Instance → Prop} {store : Store} {os : List Instance}

private theorem visit_cases (v : Outcome (Store × Instance) Unit) :
    (∃ s o, v = .done (s, o) ()) ∨ ∃ s o f, v = .failed (s, o) f := by
  obtain ⟨⟨s, o⟩, answer⟩ := v
  cases answer with
  | ok u => exact .inl ⟨s, o, rfl⟩
  | error f => exact .inr ⟨s, o, f, rfl⟩

/-- A sweep goes on after a visit that succeeds. -/
theorem sweep_cons_done {s : Store} {o o' : Instance} (h : visit store o = .done (s, o') ()) :
    sweep visit store (o :: os) = (sweep visit s os).within fun p => (p.1, o' :: p.2) := by
  rw [sweep, h]
  rfl

/-- A sweep ends with a visit that fails. -/
theorem sweep_cons_failed {s : Store} {o o' : Instance} {f : Failure}
    (h : visit store o = .failed (s, o') f) :
    sweep visit store (o :: os) = .failed (s, o' :: os) f := by
  rw [sweep, h]
  rfl

/-- Visits that all succeed and reach no row change one instance after the other. -/
theorem sweep_map {f : Instance → Instance} (h : ∀ o ∈ os, visit store o = .done (store, f o) ()) :
    sweep visit store os = .done (store, os.map f) () := by
  induction os with
  | nil => rfl
  | cons o rest ih =>
    simp only [List.forall_mem_cons] at h
    rw [sweep_cons_done h.1, ih h.2]
    rfl

/-- No sweep changes an identity. -/
theorem sweep_ids (hv : ∀ s o, Own s o (visit s o).after) (store : Store) (os : List Instance) :
    (sweep visit store os).after.2.map (·.id) = os.map (·.id) := by
  induction os generalizing store with
  | nil => rfl
  | cons o rest ih =>
    have ho := hv store o
    rcases visit_cases (visit store o) with ⟨s, o', h⟩ | ⟨s, o', f, h⟩
    · rw [h] at ho
      rw [sweep_cons_done h, List.map_cons, ← ho.id, ← ih s]
      rfl
    · rw [h] at ho
      rw [sweep_cons_failed h]
      exact congrArg (· :: rest.map (·.id)) ho.id

/-- The rows of other instances are left alone. -/
theorem sweep_other (hv : ∀ s o, Own s o (visit s o).after) (store : Store) {id : ObjectId}
    (hid : id ∉ os.map (·.id)) : (sweep visit store os).after.1.row? id = store.row? id := by
  induction os generalizing store with
  | nil => rfl
  | cons o rest ih =>
    simp only [List.map_cons, List.mem_cons, not_or] at hid
    have ho := hv store o
    rcases visit_cases (visit store o) with ⟨s, o', h⟩ | ⟨s, o', f, h⟩
    · rw [h] at ho
      rw [sweep_cons_done h]
      exact (ih s hid.2).trans (ho.other id hid.1)
    · rw [h] at ho
      rw [sweep_cons_failed h]
      exact ho.other id hid.1

/-- A store that no visit touches is not touched by the sweep. -/
theorem sweep_store (hv : ∀ s o, (visit s o).after.1 = s) :
    (sweep visit store os).after.1 = store := by
  induction os generalizing store with
  | nil => rfl
  | cons o rest ih =>
    have ho := hv store o
    rcases visit_cases (visit store o) with ⟨s, o', h⟩ | ⟨s, o', f, h⟩
    · rw [h] at ho
      rw [sweep_cons_done h]
      exact ih.trans ho
    · rw [h] at ho
      rw [sweep_cons_failed h]
      exact ho

/-- A visit to one instance leaves the rows of the others alone. -/
theorem Own.rest {o : Instance} {p : Store × Instance} (h : Own store o p)
    (hd : ((o :: os).map (·.id)).Nodup) : ∀ a ∈ os, p.1.row? a.id = store.row? a.id := by
  intro a ha
  refine h.other a.id ?_
  intro hid
  exact (List.nodup_cons.mp hd).1 (List.mem_map.mpr ⟨a, ha, hid⟩)

/-- If every visit leads from `P` to `Q`, or fails within one of the two, a completed sweep ends
with `Q` everywhere, and a broken-off one with either. -/
theorem sweep_meets (hP : Framed P) (hQ : Framed Q) (hv : ∀ s o, Own s o (visit s o).after)
    (hvisit : ∀ s o, P s o →
      (visit s o).Meets (fun p => Q p.1 p.2) fun p => P p.1 p.2 ∨ Q p.1 p.2)
    (hd : (os.map (·.id)).Nodup) (h : ∀ o ∈ os, P store o) :
    (sweep visit store os).Meets (fun p => ∀ o ∈ p.2, Q p.1 o)
      fun p => ∀ o ∈ p.2, P p.1 o ∨ Q p.1 o := by
  induction os generalizing store with
  | nil =>
    intro o ho
    cases ho
  | cons o rest ih =>
    simp only [List.forall_mem_cons] at h
    have ho := hv store o
    have hm := hvisit store o h.1
    rcases visit_cases (visit store o) with ⟨s, o', hvo⟩ | ⟨s, o', f, hvo⟩
    · rw [hvo] at ho hm
      have hrest : ∀ a ∈ rest, P s a := fun a ha => hP (ho.rest hd a ha) (h.2 a ha)
      have hid : o'.id = o.id := ho.id
      have hq : Q (sweep visit s rest).after.1 o' :=
        hQ (sweep_other hv s (hid ▸ (List.nodup_cons.mp hd).1)) hm
      have hr := (ih (List.nodup_cons.mp hd).2 hrest).and_after (X := fun p => Q p.1 o') hq
      rw [sweep_cons_done hvo]
      refine Outcome.meets_within.mpr (hr.mono ?_ ?_)
      · rintro p ⟨hp, hq⟩ a ha
        rcases List.mem_cons.mp ha with rfl | ha
        · exact hq
        · exact hp a ha
      · rintro p ⟨hp, hq⟩ a ha
        rcases List.mem_cons.mp ha with rfl | ha
        · exact .inr hq
        · exact hp a ha
    · rw [hvo] at ho hm
      rw [sweep_cons_failed hvo]
      intro a ha
      rcases List.mem_cons.mp ha with rfl | ha
      · exact hm
      · exact .inl (hP (ho.rest hd a ha) (h.2 a ha))

/-- If every visit leads from `P` to `Q` or fails in one of the ways of `F`, then so does the sweep
of everyone. -/
theorem sweep_yields {F : Failure → Prop} (hP : Framed P) (hQ : Framed Q)
    (hv : ∀ s o, Own s o (visit s o).after)
    (hvisit : ∀ s o, P s o → (visit s o).Yields (fun p => Q p.1 p.2) F)
    (hd : (os.map (·.id)).Nodup) (h : ∀ o ∈ os, P store o) :
    (sweep visit store os).Yields (fun p => ∀ o ∈ p.2, Q p.1 o) F := by
  induction os generalizing store with
  | nil =>
    intro o ho
    cases ho
  | cons o rest ih =>
    simp only [List.forall_mem_cons] at h
    have ho := hv store o
    have hm := hvisit store o h.1
    rcases visit_cases (visit store o) with ⟨s, o', hvo⟩ | ⟨s, o', f, hvo⟩
    · rw [hvo] at ho hm
      have hid : o'.id = o.id := ho.id
      have hq : Q (sweep visit s rest).after.1 o' :=
        hQ (sweep_other hv s (hid ▸ (List.nodup_cons.mp hd).1)) hm
      have hrest : ∀ a ∈ rest, P s a := fun a ha => hP (ho.rest hd a ha) (h.2 a ha)
      have hr := (ih (List.nodup_cons.mp hd).2 hrest).and_after (X := fun p => Q p.1 o') hq
      rw [sweep_cons_done hvo]
      refine Outcome.yields_within.mpr (hr.mono ?_)
      rintro p ⟨hp, hq⟩ a ha
      rcases List.mem_cons.mp ha with rfl | ha
      · exact hq
      · exact hp a ha
    · rw [hvo] at hm
      rw [sweep_cons_failed hvo]
      exact hm

/-- Visits that cannot fail make up a sweep that cannot fail. -/
theorem sweep_ok (hP : Framed P) (hv : ∀ s o, Own s o (visit s o).after)
    (hvisit : ∀ s o, P s o → (visit s o).answer = .ok ())
    (hd : (os.map (·.id)).Nodup) (h : ∀ o ∈ os, P store o) :
    (sweep visit store os).answer = .ok () :=
  (sweep_yields (Q := fun _ _ => True) hP (fun _ _ _ _ _ => trivial) hv
    (fun s o ho => Outcome.yields_of_ok (hvisit s o ho) trivial) hd h).exists_ok.elim
    fun _ hok => hok

/-- A completed sweep has visited everyone, each over the row that was there before. -/
theorem sweep_mem (hv : ∀ s o, Own s o (visit s o).after) (hd : (os.map (·.id)).Nodup)
    (hok : (sweep visit store os).answer = .ok ()) {o : Instance} (ho : o ∈ os) :
    ∃ s, s.row? o.id = store.row? o.id ∧ (visit s o).after.2 ∈ (sweep visit store os).after.2 := by
  induction os generalizing store with
  | nil => cases ho
  | cons a rest ih =>
    have ha := hv store a
    rcases visit_cases (visit store a) with ⟨s, a', hva⟩ | ⟨s, a', f, hva⟩
    · rw [hva] at ha
      rw [sweep_cons_done hva] at hok ⊢
      rcases List.mem_cons.mp ho with rfl | ho
      · refine ⟨store, rfl, ?_⟩
        rw [hva]
        exact List.mem_cons_self
      · obtain ⟨t, ht, hmem⟩ := ih (List.nodup_cons.mp hd).2 hok ho
        exact ⟨t, ht.trans (ha.rest hd o ho), List.mem_cons_of_mem _ hmem⟩
    · rw [sweep_cons_failed hva] at hok
      cases hok

end

end Lifecycle
