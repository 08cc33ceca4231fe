import Mathlib.Data.List.Induction
import Mathlib.Data.List.Sort
import Lifecycle.FetchPlan
import Lifecycle.Proofs.ByteOrder

/-! Fetch plans as sets of groups. A plan lists its groups in the order of their bytes, each of them
once, so that it is told by what it contains; and what it contains of a group, the last change that
names the group has decided. -/
namespace Lifecycle.FetchPlan

variable {p q : FetchPlan} {g : String} {groups start : List String}

private theorem mem_place {group : String} : g ∈ place group groups ↔ g = group ∨ g ∈ groups := by
  induction groups with
  | nil => simp [place]
  | cons h rest ih =>
    unfold place
    split
    · simp
    · split
      next heq => simp [heq]
      next => simp only [List.mem_cons, ih, or_left_comm]

private theorem place_increasing {group : String} (h : groups.Pairwise (· < ·)) :
    (place group groups).Pairwise (· < ·) := by
  induction groups with
  | nil => simp [place]
  | cons head rest ih =>
    obtain ⟨hhead, hrest⟩ := List.pairwise_cons.mp h
    unfold place
    split
    next hlt =>
      refine List.pairwise_cons.mpr ⟨fun x hx => ?_, h⟩
      rcases List.mem_cons.mp hx with rfl | hx
      · exact hlt
      · exact hlt.trans (hhead x hx)
    next hnlt =>
      split
      next => exact h
      next hne =>
        refine List.pairwise_cons.mpr ⟨fun x hx => ?_, ih hrest⟩
        rcases mem_place.mp hx with rfl | hx
        · exact lt_of_le_of_ne (not_lt.mp hnlt) (Ne.symm hne)
        · exact hhead x hx

def Increasing (p : FetchPlan) : Prop := p.groups.Pairwise (· < ·)

private theorem Increasing.bytes (h : p.Increasing) :
    p.groups.Pairwise fun g h => Text.bytes g < Text.bytes h :=
  h.imp Text.bytes_lt_bytes.mpr

/-- A plan contains the groups that it lists. -/
theorem contains_iff : p.contains g = true ↔ g ∈ p.groups :=
  List.contains_iff_mem

/-- An insertion adds one group. -/
theorem mem_insert {group : String} : g ∈ (p.insert group).groups ↔ g = group ∨ g ∈ p.groups :=
  mem_place

private theorem mem_erase {group : String} :
    g ∈ (p.erase group).groups ↔ g ∈ p.groups ∧ g ≠ group := by
  simp [erase]

private theorem Increasing.insert (h : p.Increasing) (group : String) :
    (p.insert group).Increasing :=
  place_increasing h

private theorem Increasing.erase (h : p.Increasing) (group : String) : (p.erase group).Increasing :=
  h.filter _

/-- A plan is told by the groups it contains. -/
theorem Increasing.eq_iff (hp : p.Increasing) (hq : q.Increasing) :
    p = q ↔ ∀ g, p.contains g = q.contains g := by
  refine ⟨fun h g => by rw [h], fun h => ?_⟩
  have hgroups : p.groups = q.groups := by
    refine List.Pairwise.eq_of_mem_iff hp hq fun g => ?_
    rw [← contains_iff, ← contains_iff, h]
  cases p
  cases q
  exact congrArg mk hgroups

inductive Change where
  | add (group : String)
  | remove (group : String)
  deriving DecidableEq

namespace Change

def group : Change → String
  | add group | remove group => group

def make (c : Change) (p : FetchPlan) : FetchPlan :=
  match c with
  | add group => p.insert group
  | remove group => p.erase group

private theorem make_increasing (c : Change) (h : p.Increasing) : (c.make p).Increasing := by
  cases c with
  | add group => exact h.insert group
  | remove group => exact h.erase group

private theorem mem_make {c : Change} :
    g ∈ (c.make p).groups ↔ c = .add g ∨ c ≠ .remove g ∧ g ∈ p.groups := by
  cases c with
  | add group => simp [make, mem_insert, eq_comm]
  | remove group => simp [make, mem_erase, eq_comm, and_comm]

def lastOn (g : String) (changes : List Change) : Option Change :=
  (changes.filter (·.group = g)).getLast?

private theorem lastOn_snoc (g : String) (changes : List Change) (c : Change) :
    lastOn g (changes ++ [c]) = if c.group = g then some c else lastOn g changes := by
  rw [lastOn, List.filter_append]
  split
  next h => simp [h]
  next h => simp [h, lastOn]

private theorem lastOn_map (kind : String → Change) (hkind : ∀ group, (kind group).group = group)
    (g : String) (groups : List String) :
    lastOn g (groups.map kind) = if g ∈ groups then some (kind g) else none := by
  -- Among changes of one kind it does not matter which are made first, or more than once.
  induction groups using List.reverseRecOn with
  | nil => simp [lastOn]
  | append_singleton groups group ih =>
    rw [List.map_append, List.map_singleton, lastOn_snoc, hkind, ih]
    by_cases h : group = g
    · simp [h]
    · simp [h, Ne.symm h]

end Change

def changed (p : FetchPlan) (changes : List Change) : FetchPlan :=
  changes.foldl (fun p c => c.make p) p

private theorem changed_snoc (p : FetchPlan) (changes : List Change) (c : Change) :
    p.changed (changes ++ [c]) = c.make (p.changed changes) := by
  rw [changed, List.foldl_append]
  rfl

/-- Changes leave the groups in order. -/
theorem Increasing.changed (h : p.Increasing) (changes : List Change) :
    (p.changed changes).Increasing := by
  induction changes using List.reverseRecOn with
  | nil => exact h
  | append_singleton changes c ih =>
    rw [changed_snoc]
    exact c.make_increasing ih

/-- The last change that names the group has decided. -/
theorem mem_changed_iff_lastOn {changes : List Change} :
    g ∈ (p.changed changes).groups ↔
      Change.lastOn g changes = some (.add g) ∨
        Change.lastOn g changes = none ∧ g ∈ p.groups := by
  induction changes using List.reverseRecOn with
  | nil => simp [changed, Change.lastOn]
  | append_singleton changes c ih =>
    rw [changed_snoc, Change.mem_make, ih, Change.lastOn_snoc]
    split
    next h =>
      cases c with
      | add group => simp [show group = g from h]
      | remove group => simp [show group = g from h]
    next h =>
      -- A change of another group neither adds this one nor removes it.
      have hadd : c ≠ .add g := fun hc => h (by rw [hc, Change.group])
      have hremove : c ≠ .remove g := fun hc => h (by rw [hc, Change.group])
      simp [hadd, hremove]

private theorem Increasing.changed_congr (h : p.Increasing) {changes changes' : List Change}
    (hlast : ∀ g, Change.lastOn g changes = Change.lastOn g changes') :
    p.changed changes = p.changed changes' := by
  refine ((h.changed _).eq_iff (h.changed _)).mpr fun g => ?_
  rw [Bool.eq_iff_iff, contains_iff, contains_iff, mem_changed_iff_lastOn, mem_changed_iff_lastOn,
    hlast]

private theorem mem_changed_add :
    g ∈ (p.changed (groups.map .add)).groups ↔ g ∈ groups ∨ g ∈ p.groups := by
  rw [mem_changed_iff_lastOn, Change.lastOn_map .add fun _ => rfl]
  by_cases h : g ∈ groups <;> simp [h]

private theorem ofList_eq_changed (groups : List String) :
    ofList groups = empty.changed (groups.map .add) := by
  rw [changed, List.foldl_map]
  rfl

/-- A plan that is made of a list has its groups in order. -/
theorem increasing_ofList (groups : List String) : (ofList groups).Increasing := by
  rw [ofList_eq_changed]
  exact Increasing.changed List.Pairwise.nil _

private theorem mem_ofList : g ∈ (ofList groups).groups ↔ g ∈ groups := by
  rw [ofList_eq_changed, mem_changed_add]
  simp [empty]

/-- The group was there at the start or has been added, and has not been removed since. -/
def Standing (start : List String) (changes : List Change) (g : String) : Prop :=
  g ∈ start ∧ .remove g ∉ changes ∨
    ∃ past future, changes = past ++ .add g :: future ∧ .remove g ∉ future

private theorem standing_snoc {changes : List Change} {c : Change} :
    Standing start (changes ++ [c]) g ↔ c = .add g ∨ c ≠ .remove g ∧ Standing start changes g := by
  constructor
  · rintro (⟨hstart, hkept⟩ | ⟨past, future, hsplit, hkept⟩)
    · rw [List.mem_append, List.mem_singleton, not_or] at hkept
      exact .inr ⟨Ne.symm hkept.2, .inl ⟨hstart, hkept.1⟩⟩
    · -- The addition that counts is the last change of all, or it was made before.
      rcases List.eq_nil_or_concat' future with rfl | ⟨future, last, rfl⟩
      · exact .inl (List.append_singleton_inj.mp hsplit).2
      · rw [← List.cons_append, ← List.append_assoc] at hsplit
        obtain ⟨rfl, rfl⟩ := List.append_singleton_inj.mp hsplit
        rw [List.mem_append, List.mem_singleton, not_or] at hkept
        exact .inr ⟨Ne.symm hkept.2, .inr ⟨past, future, rfl, hkept.1⟩⟩
  · rintro (rfl | ⟨hc, ⟨hstart, hkept⟩ | ⟨past, future, rfl, hkept⟩⟩)
    · exact .inr ⟨changes, [], rfl, by simp⟩
    · exact .inl ⟨hstart, by simp [hkept, hc.symm]⟩
    · exact .inr ⟨past, future ++ [c], by simp, by simp [hkept, hc.symm]⟩

private theorem mem_changed_ofList {changes : List Change} :
    g ∈ ((ofList start).changed changes).groups ↔ Standing start changes g := by
  induction changes using List.reverseRecOn with
  | nil => simp [changed, Standing, mem_ofList]
  | append_singleton changes c ih => rw [changed_snoc, Change.mem_make, ih, standing_snoc]

/-- The plan lists the groups that satisfy `member`, each of them once and by the order of their
bytes. -/
structure Lists (p : FetchPlan) (member : String → Prop) : Prop where
  increasing : p.groups.Pairwise fun g h => Text.bytes g < Text.bytes h
  listed : ∀ g, g ∈ p.groups ↔ member g
  contained : ∀ g, p.contains g = true ↔ member g

/-- A changed plan lists the groups that stand after the changes. -/
theorem changed_lists (start : List String) (changes : List Change) :
    ((ofList start).changed changes).Lists (Standing start changes) where
  increasing := ((increasing_ofList start).changed changes).bytes
  listed _ := mem_changed_ofList
  contained _ := contains_iff.trans mem_changed_ofList

/-- What is changed first and how often does not matter to the plan, but for the last change of each
group. -/
structure Unordered (p : FetchPlan) : Prop where
  added : ∀ groups groups' : List String, (∀ g, g ∈ groups ↔ g ∈ groups') →
    p.changed (groups.map .add) = p.changed (groups'.map .add)
  removed : ∀ groups groups' : List String, (∀ g, g ∈ groups ↔ g ∈ groups') →
    p.changed (groups.map .remove) = p.changed (groups'.map .remove)
  changed : ∀ changes changes' : List Change,
    (∀ g, Change.lastOn g changes = Change.lastOn g changes') →
      p.changed changes = p.changed changes'

/-- To a plan whose groups are in order nothing matters but the last change of each group. -/
theorem Increasing.unordered (h : p.Increasing) : p.Unordered where
  added _ _ hsame := h.changed_congr fun g => by
    simp only [Change.lastOn_map .add fun _ => rfl, hsame]
  removed _ _ hsame := h.changed_congr fun g => by
    simp only [Change.lastOn_map .remove fun _ => rfl, hsame]
  changed _ _ := h.changed_congr

def together (p q : FetchPlan) : FetchPlan :=
  p.changed (q.groups.map .add)

/-- Two plans together contain the groups of either. -/
theorem contains_together (p q : FetchPlan) (g : String) :
    (p.together q).contains g = (p.contains g || q.contains g) := by
  rw [Bool.eq_iff_iff, Bool.or_eq_true, contains_iff, contains_iff, contains_iff, together,
    mem_changed_add, or_comm]

end Lifecycle.FetchPlan
