import Lifecycle.Store.Call

/-! Rows whose entries are overwritten, in any order, more than once, and past the end. As long as
there is room for every entry the loop over them cannot panic. -/
namespace Lifecycle.Row

variable {t : Target} {r : Row} {changes : List (Nat × Value)} {n m : Nat} {v : Value}

private theorem length_put : (r.put n v).length = max r.length (1 + n) := by
  unfold put
  split
  · rw [List.length_set]
    omega
  · simp only [List.length_append, List.length_replicate, List.length_singleton]
    omega

/-- How far a row can reach without a panic. -/
def room (t : Target) (r : Row) : Nat :=
  max r.length t.capacity

def HasRoom (t : Target) (r : Row) (changes : List (UInt64 × Value)) : Prop :=
  ∀ c ∈ changes, c.1.toNat < r.room t

def positions (changes : List (UInt64 × Value)) : List (Nat × Value) :=
  changes.map fun c => (c.1.toNat, c.2)

def words (changes : List (Nat × Value)) : List (UInt64 × Value) :=
  changes.map fun c => (.ofNat c.1, c.2)

/-- Numbers that fit into a word come back from it. -/
theorem positions_words (h : ∀ c ∈ changes, c.1 < UInt64.size) :
    positions (words changes) = changes := by
  induction changes with
  | nil => rfl
  | cons c rest ih =>
    have hc : (UInt64.ofNat c.1).toNat = c.1 := UInt64.toNat_ofNat_of_lt' (h c List.mem_cons_self)
    exact List.cons_eq_cons.mpr
      ⟨Prod.ext hc rfl, ih fun d hd => h d (List.mem_cons_of_mem _ hd)⟩

/-- What the loop over a list of changes leaves, whether or not it panics. -/
def written (t : Target) (r : Row) (changes : List (UInt64 × Value)) : Row :=
  match r.overwrite t changes with
  | .ok r' | .error r' => r'

private theorem succ_toNat (n : UInt64) :
    n + 1 = 0 ∧ n.toNat + 1 = UInt64.size ∨ n + 1 ≠ 0 ∧ (n + 1).toNat = n.toNat + 1 := by
  have hadd : (n + 1).toNat = (n.toNat + 1) % UInt64.size := UInt64.toNat_add n 1
  have hzero : n + 1 = 0 ↔ (n + 1).toNat = 0 := UInt64.toNat_inj.symm
  rw [Ne, hzero, hadd]
  rcases Nat.lt_or_eq_of_le (Nat.succ_le_of_lt n.toNat_lt) with hlt | heq
  · rw [Nat.mod_eq_of_lt hlt]
    exact .inr ⟨Nat.succ_ne_zero _, rfl⟩
  · rw [show n.toNat + 1 = UInt64.size from heq]
    exact .inl ⟨Nat.mod_self _, rfl⟩

private theorem set_continued (h : r.length ≤ n) :
    (r ++ List.replicate (n + 1 - r.length) Value.null).set n v = r.put n v := by
  rw [put, if_neg (by omega), Nat.succ_sub h, List.replicate_succ', ← List.append_assoc,
    List.set_append_right _ _ (by simp; omega)]
  simp [Nat.add_sub_cancel' h]

private theorem write_of_lt {n : UInt64} (h : n.toNat < r.room t) :
    r.write t n v = .ok (r.put n.toNat v) := by
  unfold write grow
  by_cases hn : n.toNat < r.length
  · rw [if_pos hn, put, if_pos hn]
    exact if_pos hn
  · have hroom : n.toNat < t.capacity := by
      unfold room at h
      omega
    have hlength : n.toNat < (r ++ List.replicate (n.toNat + 1 - r.length) Value.null).length := by
      rw [List.length_append, List.length_replicate]
      omega
    obtain ⟨-, hmax⟩ | ⟨hword, hsucc⟩ := succ_toNat n
    · have := t.capacity_lt
      omega
    · rw [if_neg hn, if_neg (fun h => hword h.1), hsucc, resize, if_neg (by omega),
        if_pos (Nat.succ_le_of_lt hroom)]
      exact (if_pos hlength).trans (congrArg Except.ok (set_continued (Nat.le_of_not_lt hn)))

private theorem room_put (h : n < r.room t) : (r.put n v).room t = r.room t := by
  unfold room at *
  rw [length_put]
  omega

private theorem HasRoom.positions {changes : List (UInt64 × Value)} (h : r.HasRoom t changes) :
    ∀ c ∈ positions changes, c.1 < r.room t := by
  intro c hc
  obtain ⟨d, hd, rfl⟩ := List.mem_map.mp hc
  exact h d hd

/-- Where there is room the words are no other than the numbers they stand for. -/
theorem overwrite_of_hasRoom {changes : List (UInt64 × Value)} (h : r.HasRoom t changes) :
    r.overwrite t changes = .ok (r.update (positions changes)) := by
  induction changes generalizing r with
  | nil => rfl
  | cons c rest ih =>
    have hput := room_put (v := c.2) (h c List.mem_cons_self)
    have hrest : (r.put c.1.toNat c.2).HasRoom t rest := fun d hd =>
      hput ▸ h d (List.mem_cons_of_mem _ hd)
    rw [overwrite, List.foldlM_cons, write_of_lt (h c List.mem_cons_self)]
    exact ih hrest

/-- Where there is room an update writes all that is listed. -/
theorem written_of_hasRoom {changes : List (UInt64 × Value)} (h : r.HasRoom t changes) :
    r.written t changes = r.update (positions changes) := by
  rw [written, overwrite_of_hasRoom h]

end Lifecycle.Row
