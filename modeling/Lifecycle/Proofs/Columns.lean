import Mathlib.Data.List.Basic
import Lifecycle.Cache

/-! The fields of one instance column by column: their values, whether they are loaded, and whether
they were changed. Only their lengths hold the columns together, so that each access is checked: it
has no result past the end of a column. -/
namespace Lifecycle

structure Columns where
  values : List Value
  loaded : List Bool
  dirty : List Bool

namespace Columns

/-- Each column has an entry for each of `count` fields. -/
structure Fits (count : Nat) (c : Columns) : Prop where
  values : c.values.length = count
  loaded : c.loaded.length = count
  dirty : c.dirty.length = count

def ofSlots (slots : List Slot) : Columns :=
  ⟨slots.map (·.value), slots.map (·.loaded), slots.map (·.dirty)⟩

def unloaded (count : Nat) : Columns :=
  ⟨List.replicate count .null, List.replicate count false, List.replicate count false⟩

def ofValues (values : List Value) : Columns :=
  ⟨values, List.replicate values.length true, List.replicate values.length false⟩

def put {α : Type} (column : List α) (n : Nat) (a : α) : Option (List α) :=
  if n < column.length then some (column.set n a) else none

/-- Replaces a field in all the columns, one after the other. -/
def write (c : Columns) (n : Nat) (s : Slot) : Option Columns := do
  let values ← put c.values n s.value
  let loaded ← put c.loaded n s.loaded
  let dirty ← put c.dirty n s.dirty
  return ⟨values, loaded, dirty⟩

def markUnloaded (c : Columns) (n : Nat) : Option Columns := do
  let loaded ← put c.loaded n false
  return { c with loaded }

def markAllLoaded (c : Columns) : Columns :=
  { c with loaded := c.loaded.map fun _ => true }

def clearDirty (c : Columns) : Columns :=
  { c with dirty := c.dirty.map fun _ => false }

/-- Where a column of flags has the wanted one. -/
def positions (flags : List Bool) (wanted : Bool) : List Nat :=
  flags.zipIdx.filterMap fun (flag, n) => if flag = wanted then some n else none

def changes (c : Columns) : Option (List (Nat × Value)) :=
  (positions c.dirty true).mapM fun n => (c.values[n]?).map fun v => (n, v)

def unloadedIn (c : Columns) : List Nat → Option (List Nat)
  | [] => some []
  | n :: rest => do
    let isLoaded ← c.loaded[n]?
    let unloaded ← c.unloadedIn rest
    return if isLoaded then unloaded else n :: unloaded

variable {slots : List Slot} {c : Cache} {numbers : List Nat} {n : Nat}

/-- Slots that are taken apart give columns of one length. -/
theorem fits_ofSlots (slots : List Slot) : Fits slots.length (ofSlots slots) :=
  ⟨List.length_map .., List.length_map .., List.length_map ..⟩

theorem ofSlots_unloaded (count : Nat) :
    ofSlots (Cache.unloaded count).slots = unloaded count := by
  simp [ofSlots, Cache.unloaded, unloaded, Slot.unloaded]

theorem ofSlots_ofValues (values : List Value) :
    ofSlots (Cache.ofValues values).slots = ofValues values := by
  simp [ofSlots, Cache.ofValues, ofValues, Slot.clean, Function.comp_def, List.map_const']

theorem ofSlots_markAllLoaded (c : Cache) :
    ofSlots c.markAllLoaded.slots = (ofSlots c.slots).markAllLoaded := by
  simp [ofSlots, Cache.markAllLoaded, markAllLoaded, Function.comp_def]

theorem ofSlots_clearDirty (c : Cache) :
    ofSlots c.clearDirty.slots = (ofSlots c.slots).clearDirty := by
  simp [ofSlots, Cache.clearDirty, clearDirty, Function.comp_def]

private theorem put_map {α : Type} (f : Slot → α) (s : Slot) (h : n < slots.length) :
    put (slots.map f) n (f s) = some ((slots.set n s).map f) := by
  rw [put, List.length_map, if_pos h, List.map_set]

/-- A slot that is there can be written in every column. -/
theorem write_ofSlots (s : Slot) (h : n < slots.length) :
    (ofSlots slots).write n s = some (ofSlots (slots.modify n fun _ => s)) := by
  rw [← List.set_eq_modify, write, ofSlots, put_map (·.value) s h, put_map (·.loaded) s h,
    put_map (·.dirty) s h]
  rfl

/-- A slot that is there can be marked in its column. -/
theorem markUnloaded_ofSlots (h : n < slots.length) :
    (ofSlots slots).markUnloaded n =
      some (ofSlots (slots.modify n fun s => { s with loaded := false })) := by
  have hcolumns : (slots.modify n fun s => { s with loaded := false }).map (·.value) =
        slots.map (·.value) ∧
      (slots.modify n fun s => { s with loaded := false }).map (·.loaded) =
        (slots.map (·.loaded)).set n false ∧
      (slots.modify n fun s => { s with loaded := false }).map (·.dirty) =
        slots.map (·.dirty) := by
    refine ⟨?_, ?_, ?_⟩ <;> refine List.ext_getElem? fun m => ?_ <;>
      simp only [List.getElem?_map, List.getElem?_modify, List.getElem?_set'] <;>
      cases slots[m]? <;> by_cases hm : n = m <;> simp [hm]
  simp only [ofSlots, hcolumns, markUnloaded, put, List.length_map, if_pos h]
  rfl

private theorem foldlM_ofSlots {step : Columns → Nat → Option Columns} {g : Nat → Slot → Slot}
    (hstep : ∀ slots n, n < slots.length →
      step (ofSlots slots) n = some (ofSlots (slots.modify n (g n))))
    (hg : ∀ n s, g n (g n s) = g n s) (h : ∀ n ∈ numbers, n < slots.length) :
    numbers.foldlM step (ofSlots slots) =
      some (ofSlots (slots.mapIdx fun n s => if n ∈ numbers then g n s else s)) := by
  -- What one step does to the slot of a field, the steps do to the slots of all listed fields. No
  -- field is worse off for being listed twice.
  induction numbers generalizing slots with
  | nil =>
    have hall : slots.mapIdx (fun n s => if n ∈ ([] : List Nat) then g n s else s) = slots :=
      List.ext_getElem? fun m => by simp
    rw [hall]
    rfl
  | cons n rest ih =>
    simp only [List.forall_mem_cons] at h
    rw [List.foldlM_cons, hstep slots n h.1]
    refine (ih (by simpa using h.2)).trans ?_
    congr 2
    refine List.ext_getElem? fun m => ?_
    simp only [List.getElem?_mapIdx, List.getElem?_modify]
    cases slots[m]? with
    | none => rfl
    | some s =>
      by_cases hm : n = m
      · subst hm
        by_cases hrest : n ∈ rest <;> simp [hrest, hg]
      · have hne : m ≠ n := Ne.symm hm
        simp [hm, hne]

/-- Steps at the listed fields are a change of the cache where the listed fields are those that it
selects. -/
theorem foldlM_update {step : Columns → Nat → Option Columns} {p : Nat → Slot → Bool}
    {g : Nat → Slot → Slot}
    (hstep : ∀ slots n, n < slots.length →
      step (ofSlots slots) n = some (ofSlots (slots.modify n (g n))))
    (hg : ∀ n s, g n (g n s) = g n s) (h : ∀ n, n ∈ numbers ↔ n ∈ c.fieldsWhere p) :
    numbers.foldlM step (ofSlots c.slots) = some (ofSlots (c.update p g).slots) := by
  have hslot : ∀ n ∈ numbers, ∃ s, c.slots[n]? = some s ∧ p n s = true := fun n hn =>
    Cache.mem_fieldsWhere.mp ((h n).mp hn)
  rw [foldlM_ofSlots hstep hg fun n hn => ?_]
  · congr 2
    refine List.ext_getElem? fun n => ?_
    simp only [Cache.update, List.getElem?_mapIdx]
    cases hs : c.slots[n]? with
    | none => rfl
    | some s =>
      have hlisted : n ∈ numbers ↔ p n s = true := by
        rw [h, Cache.mem_fieldsWhere]
        simp [Cache.slot?, hs]
      by_cases hp : p n s = true <;> simp [hlisted, hp]
  · obtain ⟨s, hs, _⟩ := hslot n hn
    exact (List.getElem?_eq_some_iff.mp hs).1

private theorem mem_positions {flags : List Bool} {wanted : Bool} :
    n ∈ positions flags wanted ↔ flags[n]? = some wanted := by
  simp only [positions, List.mem_filterMap, Option.ite_none_right_eq_some, Option.some.injEq,
    Prod.exists, List.mem_zipIdx_iff_getElem?]
  constructor
  · rintro ⟨flag, m, h, rfl, rfl⟩
    exact h
  · intro h
    exact ⟨wanted, n, h, rfl, rfl⟩

/-- Whoever asks for the loaded or the unloaded fields gets those. -/
theorem mem_positions_loaded (c : Cache) (wanted : Bool) :
    n ∈ positions (ofSlots c.slots).loaded wanted ↔
      n ∈ c.fieldsWhere fun _ s => s.loaded == wanted := by
  rw [mem_positions, Cache.mem_fieldsWhere]
  simp [ofSlots, Cache.slot?]

/-- The column of loaded fields tells what the cache tells. -/
theorem loaded_ofSlots (h : n < c.size) :
    (ofSlots c.slots).loaded[n]? = some (c.isLoaded n) := by
  have hs : c.slots[n]? = some c.slots[n] := List.getElem?_eq_getElem h
  simp [ofSlots, Cache.isLoaded, Cache.slot?, hs]

/-- The column of values tells what the cache tells. -/
theorem value_ofSlots (h : n < c.size) :
    (ofSlots c.slots).values[n]? = some (c.value n) := by
  have hs : c.slots[n]? = some c.slots[n] := List.getElem?_eq_getElem h
  simp [ofSlots, Cache.value, Cache.slot?, hs]

/-- The columns miss the same fields as the cache. -/
theorem unloadedIn_ofSlots (h : ∀ n ∈ numbers, n < c.size) :
    (ofSlots c.slots).unloadedIn numbers = some (numbers.filter fun n => !c.isLoaded n) := by
  induction numbers with
  | nil => rfl
  | cons n rest ih =>
    simp only [List.forall_mem_cons] at h
    rw [unloadedIn, loaded_ofSlots h.1, ih h.2]
    cases hl : c.isLoaded n <;> simp [hl]

private theorem mapM_of_some {α β : Type} {f : α → Option β} {g : α → β} {xs : List α}
    (h : ∀ x ∈ xs, f x = some (g x)) : xs.mapM f = some (xs.map g) := by
  induction xs with
  | nil => rfl
  | cons x rest ih =>
    simp only [List.forall_mem_cons] at h
    rw [List.mapM_cons, h.1, ih h.2]
    rfl

/-- A field that is marked dirty has a value to be written. -/
theorem changes_ofSlots (c : Cache) : (ofSlots c.slots).changes = some c.changes := by
  rw [changes, mapM_of_some (g := fun n => (n, c.value n))]
  · have hpositions : positions (ofSlots c.slots).dirty true =
        c.slots.zipIdx.filterMap fun p => if p.1.dirty = true then some p.2 else none := by
      rw [positions, ofSlots, List.zipIdx_map, List.filterMap_map]
      rfl
    rw [hpositions, List.map_filterMap, Cache.changes]
    refine congrArg some (List.filterMap_congr ?_)
    rintro ⟨s, n⟩ hmem
    have hs : c.slots[n]? = some s := List.mem_zipIdx_iff_getElem?.mp hmem
    cases hd : s.dirty <;> simp [hd, Cache.value, Cache.slot?, hs]
  · intro n hn
    have hdirty := mem_positions.mp hn
    have hlt : n < c.size := by
      have := (List.getElem?_eq_some_iff.mp hdirty).1
      rwa [ofSlots, List.length_map] at this
    rw [value_ofSlots hlt]
    rfl

end Columns

end Lifecycle
