import Lifecycle.ObjectId

/-! Lists kept in the order of the identities of their items. Looking up after a change is
described for every list, ordered or not. -/
namespace Lifecycle.ById

variable {α : Type}

def find? (key : α → ObjectId) (id : ObjectId) (items : List α) : Option α :=
  items.find? fun a => key a = id

/-- Puts an item in its place, instead of the one with the same identity if there is one. -/
def insert (key : α → ObjectId) (a : α) : List α → List α
  | [] => [a]
  | b :: rest =>
    if key a = key b then a :: rest
    else if key a < key b then a :: b :: rest
    else b :: insert key a rest

def erase (key : α → ObjectId) (id : ObjectId) (items : List α) : List α :=
  items.filter fun a => key a ≠ id

private theorem find?_nil (key : α → ObjectId) (id : ObjectId) : find? key id [] = none := rfl

/-- The first item has the identity, or the search goes on. -/
theorem find?_cons (key : α → ObjectId) (id : ObjectId) (a : α) (rest : List α) :
    find? key id (a :: rest) = if key a = id then some a else find? key id rest := by
  by_cases h : key a = id <;> simp [find?, h]

/-- Under its own identity the inserted item is found, and under any other what was found before. -/
theorem find?_insert (key : α → ObjectId) (id : ObjectId) (a : α) (items : List α) :
    find? key id (insert key a items) = if key a = id then some a else find? key id items := by
  induction items with
  | nil => simp [insert, find?_cons, find?_nil]
  | cons b rest ih =>
    unfold insert
    split
    · next h => simp only [find?_cons, ← h]; split <;> rfl
    · split
      · simp only [find?_cons]
      · simp only [find?_cons, ih]
        by_cases h : key b = id <;> by_cases h' : key a = id <;> simp_all

/-- What was erased is not found any more, and everything else is. -/
theorem find?_erase (key : α → ObjectId) (id other : ObjectId) (items : List α) :
    find? key other (erase key id items) =
      if other = id then none else find? key other items := by
  induction items with
  | nil => simp [erase, find?_nil]
  | cons b rest ih =>
    unfold erase at ih ⊢
    by_cases hb : key b = id
    · rw [List.filter_cons_of_neg (by simp [hb]), ih, find?_cons]
      by_cases ho : other = id
      · simp [ho]
      · have : ¬ id = other := fun h => ho h.symm
        simp [ho, hb, this]
    · rw [List.filter_cons_of_pos (by simp [hb]), find?_cons, ih, find?_cons]
      by_cases ho : other = id
      · have : ¬ key b = other := fun h => hb (h.trans ho)
        simp [ho, hb]
      · simp [ho]

end Lifecycle.ById
