import Mathlib.Data.List.Nodup
import Lifecycle.Proofs.Rules

/-! What has become of each instance when a transaction ends. Its end is told of every instance by
where it started from, since nobody joins the session and nobody leaves it. -/
namespace Lifecycle.Session
variable {tx : Transaction} {w v : Store × Session}
  {R : Instance → Store → Instance → Prop}

/-- The same instances are managed, and all rows but theirs are as they were. -/
structure Confined (w v : Store × Session) : Prop where
  ids : v.2.ids = w.2.ids
  rows : ∀ id, id ∉ w.2.ids → v.1.row? id = w.1.row? id

private theorem Confined.refl (w : Store × Session) : Confined w w :=
  ⟨rfl, fun _ _ => rfl⟩

private theorem sweepWhere_confined {p : Instance → Bool}
    {visit : Store → Instance → Outcome (Store × Instance) Unit}
    (hv : ∀ s o, Own s o (visit s o).after) (h : Confined w v) :
    (sweepWhere p visit v).Meets (Confined w) (Confined w) := by
  refine Outcome.meets_self.mpr ⟨?_, ?_⟩
  · exact (sweep_ids (fun s o => (hv s o).ite) v.1 v.2.objects).trans h.ids
  · intro id hid
    have hid' : id ∉ v.2.ids := by
      rw [h.ids]
      exact hid
    exact (sweep_other (fun s o => (hv s o).ite) v.1 hid').trans (h.rows id hid)

private theorem finish_confined (h : Confined w v) :
    (finish v).Meets (Confined w) (Confined w) := by
  rw [finish_eq]
  split
  · exact ⟨h.ids, h.rows⟩
  · exact h

/-- When a transaction begins nobody comes or goes. -/
theorem begin_confined (w : Store × Session) : Confined w (begin w).after := by
  rw [begin]
  split
  · exact Confined.refl w
  · refine Outcome.meets_self.mp (Outcome.meets_map.mpr ?_)
    exact sweepWhere_confined applying_own ⟨rfl, fun _ _ => rfl⟩

/-- A commit writes no rows but those of the instances. -/
theorem commit_confined (w : Store × Session) : Confined w (commit w).after := by
  cases ha : w.2.tx.active with
  | true =>
    refine Outcome.meets_self.mp (commit_steps ha (F := Confined w) (D := Confined w) ?_ ?_ ?_ ?_)
    · exact sweepWhere_confined Instance.flush_own (Confined.refl w)
    · exact fun v hv => sweepWhere_confined detaching_own hv
    · exact fun v hv => sweepWhere_confined applying_own hv
    · exact fun v hv => finish_confined hv
  | false =>
    rw [commit_of_inactive ha]
    exact Confined.refl w

/-- A rollback writes no rows but those of the instances. -/
theorem rollback_confined (w : Store × Session) : Confined w (rollback w).after := by
  cases ha : w.2.tx.active with
  | true =>
    exact Outcome.meets_self.mp (rollback_steps ha (D := Confined w)
      (sweepWhere_confined applying_own (Confined.refl w)) fun v hv => finish_confined hv)
  | false =>
    rw [rollback_of_inactive ha]
    exact Confined.refl w

/-- The instance started as one of `origins`, and `R` tells how it got where it is. -/
def From (origins : List Instance) (R : Instance → Store → Instance → Prop) (s : Store)
    (o : Instance) : Prop :=
  ∃ a ∈ origins, a.id = o.id ∧ R a s o

/-- Where an instance comes from does not depend on the rows of others. -/
theorem From.framed {origins : List Instance} (hR : ∀ a, Framed (R a)) :
    Framed (From origins R) := by
  rintro s t o hrow ⟨a, ha, hid, h⟩
  exact ⟨a, ha, hid, hR a hrow h⟩

/-- If everyone has an origin, then every origin has become someone. -/
theorem Holds.of_from (hs : ById.Sorted Instance.id w.2.objects)
    (h : Holds tx (From w.2.objects R) v) (hids : v.2.ids = w.2.ids) {a : Instance}
    (ha : a ∈ w.2.objects) : ∃ o ∈ v.2.objects, o.id = a.id ∧ R a v.1 o := by
  have hmem : a.id ∈ v.2.ids := by
    rw [hids]
    exact List.mem_map_of_mem ha
  obtain ⟨o, ho, hoa⟩ := List.mem_map.mp hmem
  obtain ⟨b, hb, hbo, hR⟩ := h.each o ho
  obtain rfl : b = a := List.inj_on_of_nodup_map hs.nodup hb ha (hbo.trans hoa)
  exact ⟨o, ho, hoa, hR⟩

/-- What is told of everyone by its origin holds of everyone if and only if it does of all origins.
-/
theorem Holds.forall_iff_of_from {X Y : Instance → Prop} (hs : ById.Sorted Instance.id w.2.objects)
    (h : Holds tx (From w.2.objects fun a _ o => X o ↔ Y a) v) (hids : v.2.ids = w.2.ids) :
    (∀ o ∈ v.2.objects, X o) ↔ ∀ a ∈ w.2.objects, Y a := by
  constructor
  · intro hX a ha
    obtain ⟨o, ho, _, hiff⟩ := Holds.of_from hs h hids ha
    exact hiff.mp (hX o ho)
  · intro hY o ho
    obtain ⟨a, ha, _, hiff⟩ := h.each o ho
    exact hiff.mpr (hY a ha)

end Lifecycle.Session
