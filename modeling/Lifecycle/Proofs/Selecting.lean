import Mathlib.Data.List.Forall2
import Lifecycle.Proofs.Declaring
import Lifecycle.Proofs.Groups

/-! What a fetch plan selects. Every reason to select a field but the key is a group that the field
belongs to and the plan contains, so that a plan selects more the more groups it contains, and
nothing else about it matters. -/
namespace Lifecycle

namespace Field
variable {f f' : Field} {p q : FetchPlan} {group : String}

/-- The field belongs to the group of all fields, perhaps to the default group, and to those that it
names, which may be one of these two again. -/
def BelongsTo (f : Field) (group : String) : Prop :=
  group = FetchPlan.allGroup ∨ (f.defaultFetchGroup = true ∧ group = FetchPlan.defaultGroup) ∨
    group ∈ f.fetchGroups

private theorem inPlan_iff : f.inPlan p = true ↔
    f.primaryKey = true ∨ ∃ group, f.BelongsTo group ∧ p.contains group = true := by
  simp only [inPlan, BelongsTo, Bool.or_eq_true, Bool.and_eq_true, List.any_eq_true, or_and_right,
    exists_or, exists_eq_left, and_assoc, exists_and_left, or_assoc]

private theorem inPlan_empty (f : Field) : f.inPlan .empty = f.primaryKey := by
  rw [Bool.eq_iff_iff, inPlan_iff, or_iff_left_iff_imp]
  rintro ⟨group, -, hcontains⟩
  cases hcontains

/-- The same field but for its name, and for the order and the repetition of its groups. -/
structure Regrouped (f f' : Field) : Prop where
  primaryKey : f.primaryKey = f'.primaryKey
  defaultFetchGroup : f.defaultFetchGroup = f'.defaultFetchGroup
  fetchGroups : ∀ group, group ∈ f.fetchGroups ↔ group ∈ f'.fetchGroups

private theorem Regrouped.inPlan (h : f.Regrouped f') : f.inPlan p = f'.inPlan p := by
  have hgroups (group : String) : f.BelongsTo group ↔ f'.BelongsTo group := by
    rw [BelongsTo, BelongsTo, h.defaultFetchGroup, h.fetchGroups]
  rw [Bool.eq_iff_iff, inPlan_iff, inPlan_iff, h.primaryKey]
  simp only [hgroups]

end Field

namespace Schema
variable {c c' : Schema} {p q : FetchPlan} {n : Nat}

private theorem mem_planFields_iff : n ∈ c.planFields p ↔ ∃ f, c.fields[n]? = some f ∧
    (f.primaryKey = true ∨ ∃ group, f.BelongsTo group ∧ p.contains group = true) := by
  simp only [mem_planFields, selects, Option.any_eq_true, Field.inPlan_iff]

private theorem planFields_increasing (c : Schema) (p : FetchPlan) :
    (c.planFields p).Pairwise (· < ·) :=
  List.pairwise_lt_range.filter _

private theorem planFields_mono (h : ∀ group, p.contains group = true → q.contains group = true)
    (hn : n ∈ c.planFields p) : n ∈ c.planFields q := by
  obtain ⟨f, hf, hwhy⟩ := mem_planFields_iff.mp hn
  refine mem_planFields_iff.mpr ⟨f, hf, hwhy.imp_right ?_⟩
  rintro ⟨group, hgroup, hcontains⟩
  exact ⟨group, hgroup, h group hcontains⟩

private theorem mem_planFields_together :
    n ∈ c.planFields (p.together q) ↔ n ∈ c.planFields p ∨ n ∈ c.planFields q := by
  constructor
  · intro hn
    obtain ⟨f, hf, hkey | ⟨group, hgroup, hcontains⟩⟩ := mem_planFields_iff.mp hn
    · exact .inl (mem_planFields_iff.mpr ⟨f, hf, .inl hkey⟩)
    · rw [FetchPlan.contains_together, Bool.or_eq_true] at hcontains
      exact hcontains.imp (fun hp => mem_planFields_iff.mpr ⟨f, hf, .inr ⟨group, hgroup, hp⟩⟩)
        fun hq => mem_planFields_iff.mpr ⟨f, hf, .inr ⟨group, hgroup, hq⟩⟩
  · rintro (hp | hq)
    · exact planFields_mono (fun _ h => by simp [FetchPlan.contains_together, h]) hp
    · exact planFields_mono (fun _ h => by simp [FetchPlan.contains_together, h]) hq

private theorem planFields_all (h : p.contains FetchPlan.allGroup = true) :
    c.planFields p = List.range c.fieldCount := by
  refine List.filter_eq_self.mpr fun n hn => ?_
  rw [← mem_planFields, mem_planFields_iff]
  exact ⟨_, List.getElem?_eq_getElem (List.mem_range.mp hn), .inr ⟨_, .inl rfl, h⟩⟩

private theorem planFields_empty (c : Schema) : c.planFields .empty = c.keyFields :=
  List.filter_congr fun n _ => by simp only [selects, isPrimaryKey, Field.inPlan_empty]

private theorem planFields_regrouped (h : List.Forall₂ Field.Regrouped c.fields c'.fields) :
    c.planFields p = c'.planFields p := by
  have hselected : c.fields.map (·.inPlan p) = c'.fields.map (·.inPlan p) := by
    rw [← List.forall₂_eq_eq_eq, List.forall₂_map_left_iff, List.forall₂_map_right_iff]
    exact h.imp fun _ _ hf => hf.inPlan
  have hselects (n : Nat) : c.selects p n = c'.selects p n := by
    have hany (d : Schema) : d.selects p n = (d.fields.map (·.inPlan p))[n]?.any id := by
      rw [List.getElem?_map, Option.any_map]
      rfl
    rw [hany, hany, hselected]
  rw [planFields, planFields, fieldCount, fieldCount, h.length_eq]
  exact List.filter_congr fun n _ => hselects n

/-- What the plan selects of the class: the key and the fields that belong to a group of the plan,
each of them once and in order. -/
structure Selection (c : Schema) (p : FetchPlan) : Prop where
  selected : ∀ n, n ∈ c.planFields p ↔ ∃ f, c.fields[n]? = some f ∧
    (f.primaryKey = true ∨ ∃ group, f.BelongsTo group ∧ p.contains group = true)
  increasing : (c.planFields p).Pairwise (· < ·)
  declared : ∀ n ∈ c.planFields p, n < c.fieldCount
  key : ∀ n ∈ c.keyFields, n ∈ c.planFields p
  all : p.contains FetchPlan.allGroup = true → c.planFields p = List.range c.fieldCount
  empty : p = .empty → c.planFields p = c.keyFields
  more : ∀ group, ∀ n ∈ c.planFields p, n ∈ c.planFields (p.insert group)
  regrouped : ∀ c' : Schema, List.Forall₂ Field.Regrouped c.fields c'.fields →
    c.planFields p = c'.planFields p

private theorem selection (c : Schema) (p : FetchPlan) : c.Selection p where
  selected _ := mem_planFields_iff
  increasing := planFields_increasing c p
  declared _ hn := lt_of_selects (mem_planFields.mp hn)
  key _ hn := mem_planFields.mpr (selects_of_isPrimaryKey (mem_keyFields.mp hn))
  all := planFields_all
  empty h := h ▸ planFields_empty c
  more _ _ := planFields_mono fun _ h =>
    FetchPlan.contains_iff.mpr (FetchPlan.mem_insert.mpr (.inr (FetchPlan.contains_iff.mp h)))
  regrouped _ := planFields_regrouped

/-- A plan, which starts with a list of groups and is changed from then on, is the set of the groups
that are still standing. It selects from each class by that set alone, and the fields of two plans
together are those that one of them selects. -/
theorem plans_select_as_sets (c : Schema) {p q : FetchPlan} {start start' : List String}
    {changes changes' : List FetchPlan.Change}
    (hp : p = (FetchPlan.ofList start).changed changes)
    (hq : q = (FetchPlan.ofList start').changed changes') :
    p.Lists (FetchPlan.Standing start changes) ∧
      (p = q ↔ ∀ group, p.contains group = q.contains group) ∧
      p.Unordered ∧
      c.Selection p ∧
      (∀ group, (p.together q).contains group = (p.contains group || q.contains group)) ∧
      ∀ n, n ∈ c.planFields (p.together q) ↔ n ∈ c.planFields p ∨ n ∈ c.planFields q := by
  have hincreasing : p.Increasing := hp ▸ (FetchPlan.increasing_ofList start).changed changes
  have hincreasing' : q.Increasing := hq ▸ (FetchPlan.increasing_ofList start').changed changes'
  exact ⟨hp ▸ FetchPlan.changed_lists start changes, hincreasing.eq_iff hincreasing',
    hincreasing.unordered, selection c p, FetchPlan.contains_together p q,
    fun _ => mem_planFields_together⟩

def wholeLine : FetchPlan :=
  FetchPlan.standard.changed [.add "texts", .add "all", .remove "texts"]

def repetitiveLine : Schema :=
  { orderLine with
    fields := [.key "order", .plain "article", .key "line",
      ((Field.onDemand "remark").inGroup "texts").inGroup "texts"] }

/-- The default plan was given a group that was given up again, and every field. -/
theorem plans_select_as_sets_wholeLine :
    wholeLine.groups.Pairwise (fun g h => Text.bytes g < Text.bytes h) ∧
      FetchPlan.Standing ["default"] [.add "texts", .add "all", .remove "texts"] "all" ∧
      ¬ FetchPlan.Standing ["default"] [.add "texts", .add "all", .remove "texts"] "texts" ∧
      wholeLine = FetchPlan.ofList ["default", "all", "default"] ∧
      wholeLine.changed [.add "texts", .remove "all", .add "texts"] =
        wholeLine.changed [.remove "all", .add "texts"] ∧
      orderLine.planFields wholeLine = [0, 1, 2, 3] ∧
      orderLine.planFields wholeLine = repetitiveLine.planFields wholeLine := by
  have hwhole : wholeLine = (FetchPlan.ofList ["default"]).changed
      [.add "texts", .add "all", .remove "texts"] := rfl
  have hlisted : FetchPlan.ofList ["default", "all", "default"] =
      (FetchPlan.ofList ["default", "all", "default"]).changed [] := rfl
  obtain ⟨hlists, hsame, hunordered, hselection, -, -⟩ :=
    plans_select_as_sets orderLine hwhole hlisted
  refine ⟨hlists.increasing, (hlists.contained "all").mp rfl, ?_, hsame.mpr ?_,
    hunordered.changed _ _ ?_, hselection.all rfl, hselection.regrouped _ ?_⟩
  · rw [← hlists.contained]
    decide
  · exact fun _ => rfl
  · intro group
    by_cases htexts : "texts" = group <;> by_cases hall : "all" = group <;>
      simp [FetchPlan.Change.lastOn, FetchPlan.Change.group, htexts, hall]
  · have hself (f : Field) : f.Regrouped f := ⟨rfl, rfl, fun _ => Iff.rfl⟩
    exact .cons (hself _) (.cons (hself _) (.cons (hself _)
      (.cons ⟨rfl, rfl, fun _ => by simp [Field.inGroup, Field.onDemand]⟩ .nil)))

end Schema

end Lifecycle
