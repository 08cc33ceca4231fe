import Lifecycle.Proofs.Sweep

/-! Properties of all managed instances of a session. The instances stay in the strict order of
their identities, so that each has its row to itself. -/
namespace Lifecycle

namespace ObjectId
variable {a b c : ObjectId}

private theorem lt_irrefl : ¬ a < a :=
  Nat.lt_irrefl a.toNat

private theorem lt_trans (h : a < b) (h' : b < c) : a < c :=
  Nat.lt_trans h h'

private theorem lt_of_not_lt (h : ¬ a < b) (hne : a ≠ b) : b < a := by
  refine Nat.lt_of_le_of_ne (Nat.le_of_not_lt h) ?_
  intro heq
  refine hne ?_
  obtain ⟨a⟩ := a
  obtain ⟨b⟩ := b
  exact congrArg ObjectId.mk (BitVec.eq_of_toNat_eq heq.symm)

end ObjectId

namespace ById
variable {α : Type} {key : α → ObjectId} {a b : α} {items : List α}

def Sorted (key : α → ObjectId) (items : List α) : Prop :=
  items.Pairwise fun a b => key a < key b

/-- Behind an insertion there is the inserted item, and those with other identities. -/
theorem mem_insert (hs : Sorted key items) (h : b ∈ insert key a items) :
    b = a ∨ b ∈ items ∧ key b ≠ key a := by
  induction items with
  | nil => exact .inl (List.mem_singleton.mp h)
  | cons c rest ih =>
    obtain ⟨hc, hrest⟩ := List.pairwise_cons.mp hs
    simp only [insert] at h
    split at h
    · next hac =>
      rcases List.mem_cons.mp h with rfl | hb
      · exact .inl rfl
      · refine .inr ⟨List.mem_cons_of_mem _ hb, ?_⟩
        intro hba
        exact ObjectId.lt_irrefl (hba ▸ hac ▸ hc b hb)
    · next hac =>
      split at h
      · next hlt =>
        rcases List.mem_cons.mp h with rfl | hb
        · exact .inl rfl
        · refine .inr ⟨hb, ?_⟩
          intro hba
          rcases List.mem_cons.mp hb with rfl | hb
          · exact hac hba.symm
          · exact ObjectId.lt_irrefl (hba ▸ ObjectId.lt_trans hlt (hc b hb))
      · rcases List.mem_cons.mp h with rfl | hb
        · exact .inr ⟨List.mem_cons_self, fun hba => hac hba.symm⟩
        · rcases ih hrest hb with rfl | ⟨hb, hba⟩
          · exact .inl rfl
          · exact .inr ⟨List.mem_cons_of_mem _ hb, hba⟩

private theorem Sorted.insert (hs : Sorted key items) : Sorted key (insert key a items) := by
  induction items with
  | nil => exact List.pairwise_singleton _ _
  | cons c rest ih =>
    obtain ⟨hc, hrest⟩ := List.pairwise_cons.mp hs
    simp only [ById.insert]
    split
    · next hac => exact List.pairwise_cons.mpr ⟨fun b hb => hac ▸ hc b hb, hrest⟩
    · next hac =>
      split
      · next hlt =>
        refine List.pairwise_cons.mpr ⟨?_, hs⟩
        intro b hb
        rcases List.mem_cons.mp hb with rfl | hb
        · exact hlt
        · exact ObjectId.lt_trans hlt (hc b hb)
      · next hlt =>
        refine List.pairwise_cons.mpr ⟨?_, ih hrest⟩
        intro b hb
        rcases mem_insert hrest hb with rfl | ⟨hb, _⟩
        · exact ObjectId.lt_of_not_lt hlt hac
        · exact hc b hb

/-- In a sorted list no identity occurs twice. -/
theorem Sorted.nodup (hs : Sorted key items) : (items.map key).Nodup := by
  refine List.pairwise_map.mpr (hs.imp ?_)
  intro a b hab heq
  exact ObjectId.lt_irrefl (heq ▸ hab)

/-- What is found is in the list, and has the identity. -/
theorem mem_of_find? {id : ObjectId} (h : find? key id items = some a) :
    a ∈ items ∧ key a = id :=
  ⟨List.mem_of_find?_eq_some h, by simpa using List.find?_some h⟩

private theorem insert_of_find? (hs : Sorted key items) {id : ObjectId}
    (h : find? key id items = some a) :
    insert key a items = items := by
  induction items with
  | nil => cases h
  | cons b rest ih =>
    obtain ⟨hb, hrest⟩ := List.pairwise_cons.mp hs
    rw [find?_cons] at h
    split at h
    · cases h
      simp [insert]
    · have hlt : key b < key a := hb a (mem_of_find? h).1
      have hne : key a ≠ key b := fun heq => ObjectId.lt_irrefl (heq ▸ hlt)
      have hngt : ¬ key a < key b := fun hgt => ObjectId.lt_irrefl (ObjectId.lt_trans hlt hgt)
      rw [insert, if_neg hne, if_neg hngt, ih hrest h]

end ById

namespace Session

/-- The session is in the given transaction, and each of its instances satisfies `P` over the
store. -/
structure Holds (tx : Transaction) (P : Store → Instance → Prop) (w : Store × Session) : Prop where
  tx : w.2.tx = tx
  sorted : ById.Sorted Instance.id w.2.objects
  each : ∀ o ∈ w.2.objects, P w.1 o

variable {tx tx' : Transaction} {P Q : Store → Instance → Prop} {w : Store × Session}

/-- What all instances satisfy may be weakened. -/
theorem Holds.mono (h : Holds tx P w) (hPQ : ∀ o ∈ w.2.objects, P w.1 o → Q w.1 o) :
    Holds tx Q w :=
  ⟨h.tx, h.sorted, fun o ho => hPQ o ho (h.each o ho)⟩

/-- An instance that was worked on by itself goes back to the others. -/
theorem Holds.manage {store : Store} {o : Instance} (h : Holds tx P w) (hP : Framed P)
    (hother : ∀ id, id ≠ o.id → store.row? id = w.1.row? id) (ho : P store o) :
    Holds tx P (store, w.2.manage o) := by
  refine ⟨h.tx, h.sorted.insert, ?_⟩
  intro a ha
  rcases ById.mem_insert h.sorted ha with rfl | ⟨ha, hao⟩
  · exact ho
  · exact hP (hother a.id hao) (h.each a ha)

/-- Who is found under an identity is managed, and has it. -/
theorem object_eq_ok {session : Session} {id : ObjectId} {o : Instance}
    (h : session.object id = .ok o) : o ∈ session.objects ∧ o.id = id := by
  simp only [Session.object] at h
  split at h
  · next a ha =>
    cases h
    exact ById.mem_of_find? ha
  · cases h

/-- Under a managed identity an instance is found. -/
theorem exists_object {session : Session} {id : ObjectId} (h : id ∈ session.ids) :
    ∃ o, session.object id = .ok o := by
  obtain ⟨a, ha, hid⟩ := List.mem_map.mp h
  cases hf : session.object? id with
  | some o => exact ⟨o, by rw [Session.object, hf]⟩
  | none => exact absurd hid (by simpa using List.find?_eq_none.mp hf a ha)

/-- Whoever is managed is found under its identity. -/
theorem object_manage (session : Session) (o : Instance) :
    (session.manage o).object o.id = .ok o := by
  rw [Session.object, object?, manage, ById.find?_insert, if_pos rfl]

/-- Whoever is managed is listed. -/
theorem mem_ids_manage (session : Session) (o : Instance) : o.id ∈ (session.manage o).ids := by
  obtain ⟨hmem, _⟩ := object_eq_ok (object_manage session o)
  exact List.mem_map_of_mem hmem

/-- To manage an instance again as it was found changes nothing. -/
theorem manage_object {session : Session} (hs : ById.Sorted Instance.id session.objects)
    {id : ObjectId} {o : Instance} (h : session.object id = .ok o) :
    session.manage o = session := by
  simp only [Session.object] at h
  split at h
  · next a ha =>
    cases h
    rw [manage, ById.insert_of_find? hs ha]
  · cases h

/-- The instance with an identity satisfies what all do. -/
theorem Holds.object (h : Holds tx P w) {id : ObjectId} {o : Instance}
    (ho : w.2.object id = .ok o) : o ∈ w.2.objects ∧ o.id = id ∧ P w.1 o := by
  obtain ⟨hmem, hid⟩ := object_eq_ok ho
  exact ⟨hmem, hid, h.each o hmem⟩

private theorem sorted_of_map {os os' : List Instance} (h : os'.map (·.id) = os.map (·.id))
    (hs : ById.Sorted Instance.id os) : ById.Sorted Instance.id os' := by
  have hm := List.pairwise_map.mpr hs
  rw [← h] at hm
  exact List.pairwise_map.mp hm

/-- What visiting the chosen instances does to all of them. The others pass to `Q` unvisited. -/
theorem sweepWhere_meets (p : Instance → Bool)
    (visit : Store → Instance → Outcome (Store × Instance) Unit) (hP : Framed P) (hQ : Framed Q)
    (hv : ∀ s o, Own s o (visit s o).after)
    (hvisit : ∀ s o, p o → P s o →
      (visit s o).Meets (fun r => Q r.1 r.2) fun r => P r.1 r.2 ∨ Q r.1 r.2)
    (hskip : ∀ s o, p o = false → P s o → Q s o) (h : Holds tx P w) :
    (sweepWhere p visit w).Meets (Holds tx Q) (Holds tx fun s o => P s o ∨ Q s o) := by
  have hown : ∀ s o, Own s o (if p o then visit s o else .done (s, o) ()).after :=
    fun s o => (hv s o).ite
  have hm := sweep_meets hP hQ hown (fun s o ho => by
    cases hp : p o with
    | true => exact hvisit s o hp ho
    | false => exact hskip s o hp ho) h.sorted.nodup h.each
  have hids := sorted_of_map (sweep_ids hown w.1 w.2.objects) h.sorted
  refine Outcome.meets_within.mpr ?_
  revert hm hids
  generalize sweep _ w.1 w.2.objects = r
  obtain ⟨⟨s, os⟩, answer⟩ := r
  intro hm hids
  cases answer with
  | ok u => exact ⟨h.tx, hids, hm⟩
  | error f => exact ⟨h.tx, hids, hm⟩

/-- A sweep leads every instance from `P` to `Q`, or fails as one of its visits does. -/
theorem sweepWhere_yields (p : Instance → Bool)
    (visit : Store → Instance → Outcome (Store × Instance) Unit) {F : Failure → Prop}
    (hP : Framed P) (hQ : Framed Q) (hv : ∀ s o, Own s o (visit s o).after)
    (hvisit : ∀ s o, p o → P s o → (visit s o).Yields (fun r => Q r.1 r.2) F)
    (hskip : ∀ s o, p o = false → P s o → Q s o) (h : Holds tx P w) :
    (sweepWhere p visit w).Yields (Holds tx Q) F := by
  have hown : ∀ s o, Own s o (if p o then visit s o else .done (s, o) ()).after :=
    fun s o => (hv s o).ite
  have hm := sweep_yields hP hQ hown (fun s o ho => by
    cases hp : p o with
    | true => exact hvisit s o hp ho
    | false => exact hskip s o hp ho) h.sorted.nodup h.each
  have hids := sorted_of_map (sweep_ids hown w.1 w.2.objects) h.sorted
  refine Outcome.yields_within.mpr ?_
  revert hm hids
  generalize sweep _ w.1 w.2.objects = r
  obtain ⟨⟨s, os⟩, answer⟩ := r
  intro hm hids
  cases answer with
  | ok u => exact ⟨h.tx, hids, hm⟩
  | error f => exact hm

/-- A sweep succeeds if all its visits do. -/
theorem sweepWhere_ok (p : Instance → Bool)
    (visit : Store → Instance → Outcome (Store × Instance) Unit) (hP : Framed P)
    (hv : ∀ s o, Own s o (visit s o).after)
    (hvisit : ∀ s o, p o → P s o → (visit s o).answer = .ok ()) (h : Holds tx P w) :
    (sweepWhere p visit w).answer = .ok () := by
  refine sweep_ok hP (fun s o => (hv s o).ite) ?_ h.sorted.nodup h.each
  intro s o ho
  split
  · next hp => exact hvisit s o hp ho
  · rfl

/-- Visits by which no row is written leave the store as it is. -/
theorem sweepWhere_store (p : Instance → Bool)
    (visit : Store → Instance → Outcome (Store × Instance) Unit)
    (hv : ∀ s o, (visit s o).after.1 = s) (w : Store × Session) :
    (sweepWhere p visit w).after.1 = w.1 := by
  refine sweep_store ?_
  intro s o
  split
  · exact hv s o
  · rfl

/-- Visits that all succeed and reach no row change the chosen instances, one after the other. -/
theorem sweepWhere_map {p : Instance → Bool}
    {visit : Store → Instance → Outcome (Store × Instance) Unit} {f : Instance → Instance}
    (hvisit : ∀ o ∈ w.2.objects, p o = true → visit w.1 o = .done (w.1, f o) ())
    (hskip : ∀ o ∈ w.2.objects, p o = false → f o = o) :
    sweepWhere p visit w = .done (w.1, { w.2 with objects := w.2.objects.map f }) () := by
  rw [sweepWhere, sweep_map (f := f)]
  · rfl
  · intro o ho
    cases hp : p o with
    | true => exact hvisit o ho hp
    | false =>
      rw [hskip o ho hp]
      rfl

/-- If no visit fails, every chosen instance is visited. -/
theorem sweepWhere_mem {p : Instance → Bool}
    {visit : Store → Instance → Outcome (Store × Instance) Unit}
    (hv : ∀ s o, Own s o (visit s o).after) (h : ById.Sorted Instance.id w.2.objects)
    (hok : (sweepWhere p visit w).answer = .ok ()) {o : Instance} (ho : o ∈ w.2.objects)
    (hp : p o) :
    ∃ s, s.row? o.id = w.1.row? o.id ∧
      (visit s o).after.2 ∈ (sweepWhere p visit w).after.2.objects := by
  obtain ⟨s, hs, hmem⟩ := sweep_mem (fun s o => (hv s o).ite) h.nodup hok ho
  rw [if_pos hp] at hmem
  exact ⟨s, hs, hmem⟩

/-- The others stay as they are. -/
theorem sweepWhere_mem_skipped {p : Instance → Bool}
    {visit : Store → Instance → Outcome (Store × Instance) Unit}
    (hv : ∀ s o, Own s o (visit s o).after) (h : ById.Sorted Instance.id w.2.objects)
    (hok : (sweepWhere p visit w).answer = .ok ()) {o : Instance} (ho : o ∈ w.2.objects)
    (hp : p o = false) : o ∈ (sweepWhere p visit w).after.2.objects := by
  obtain ⟨s, _, hmem⟩ := sweep_mem (fun s o => (hv s o).ite) h.nodup hok ho
  rw [hp] at hmem
  exact hmem

end Session

end Lifecycle
