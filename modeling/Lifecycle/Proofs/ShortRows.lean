import Lifecycle.Proofs.Access
import Lifecycle.Proofs.Failures

/-! Rows of any length. What is not in a row counts as null, so that an instance cannot tell a short
row from one that is continued by nulls. -/
namespace Lifecycle

namespace Row
variable {r r' : Row} {n : Nat}

/-- Past its end a row is null. -/
theorem entry_of_length_le (h : r.length ≤ n) : r.entry n = .null := by
  rw [entry, List.getD_eq_getElem?_getD, List.getElem?_eq_none h]
  rfl

/-- The rows have the same entries, or neither is there. -/
def Alike (r? r'? : Option Row) : Prop :=
  r?.map entry = r'?.map entry

private theorem alike_some : Alike (some r) (some r') ↔ r.entry = r'.entry :=
  Option.some_inj

end Row

namespace Instance
variable {tx : Transaction} {s t : Store} {o : Instance}

private theorem fetch_cases {id : ObjectId} (h : Row.Alike (s.row? id) (t.row? id)) :
    (∃ f, s.fetch id = .error f ∧ t.fetch id = .error f) ∨
      ∃ r r', s.fetch id = .ok r ∧ t.fetch id = .ok r' ∧ r.entry = r'.entry := by
  rw [Store.fetch, Store.fetch]
  cases hs : s.row? id <;> cases ht : t.row? id <;> rw [hs, ht] at h
  case none.none => exact .inl ⟨_, rfl, rfl⟩
  case some.some r r' => exact .inr ⟨r, r', rfl, rfl, Row.alike_some.mp h⟩
  all_goals cases h

private theorem load_entry_congr {c : Cache} {selected : Nat → Slot → Bool} {r r' : Row}
    (h : r.entry = r'.entry) : c.load selected r = c.load selected r' := by
  change c.update selected (fun n _ => .clean (r.entry n)) =
    c.update selected fun n _ => .clean (r'.entry n)
  rw [h]

private theorem load_congr (selected : Nat → Slot → Bool)
    (h : Row.Alike (s.row? o.id) (t.row? o.id)) :
    o.load s selected = o.load t selected := by
  rw [load, load]
  rcases fetch_cases h with ⟨f, hs, ht⟩ | ⟨r, r', hs, ht, hr⟩
  · rw [hs, ht]
  · rw [hs, ht]
    simp only [Except.map, load_entry_congr hr]

private theorem perform_congr (e : Effect) (h : Row.Alike (s.row? o.id) (t.row? o.id)) :
    o.perform s e = o.perform t e := by
  cases e <;> first | rfl | exact load_congr _ h

private theorem performAll_congr (es : List Effect) (h : Row.Alike (s.row? o.id) (t.row? o.id)) :
    performAll s es o = performAll t es o := by
  induction es generalizing o with
  | nil => rfl
  | cons e rest ih =>
    rw [performAll_cons, performAll_cons, perform_congr e h]
    cases hp : o.perform t e with
    | ok o' => exact ih (by rw [perform_id hp]; exact h)
    | error f => rfl

private theorem apply_congr (tx : Transaction) (r : Request)
    (h : Row.Alike (s.row? o.id) (t.row? o.id)) :
    o.apply tx s r = o.apply tx t r := by
  rw [apply, apply]
  cases transition tx o.schema.identity r o.state with
  | error refusal => rfl
  | ok m => simp only [performAll_congr m.effects h]

private theorem readField_congr (tx : Transaction) (n : Nat)
    (h : Row.Alike (s.row? o.id) (t.row? o.id)) :
    o.readField tx s n = o.readField tx t n := by
  have hid := (apply_frame tx t (.readField (o.cache.isLoaded n)) o).1
  rw [readField, readField, apply_congr tx _ h]
  generalize o.apply tx t (.readField (o.cache.isLoaded n)) = a at hid
  have hsupply : a.after.supply s n = a.after.supply t n := by
    rw [supply, supply, load_congr _ (by rw [hid]; exact h)]
  simp only [Outcome.andThen, hsupply]

private theorem writeField_congr (tx : Transaction) (n : Nat) (v : Value)
    (h : Row.Alike (s.row? o.id) (t.row? o.id)) :
    o.writeField tx s n v = o.writeField tx t n v := by
  rw [writeField, writeField, apply_congr tx _ h]

private theorem written_cases (h : Row.Alike (s.row? o.id) (t.row? o.id)) :
    (∃ f, o.written s = .error f ∧ o.written t = .error f) ∨
      ∃ s' t', o.written s = .ok s' ∧ o.written t = .ok t' := by
  rw [written, written]
  cases hs : s.row? o.id <;> cases ht : t.row? o.id <;> rw [hs, ht] at h
  case none.some | some.none => cases h
  all_goals
    cases o.state.isNew <;> cases o.state.isDeleted <;>
      simp only [Store.insert, Store.update, Store.delete, hs, ht]
  case none.none.false.false | some.some.false.false =>
    split
    · first | exact .inl ⟨_, rfl, rfl⟩ | exact .inr ⟨_, _, rfl, rfl⟩
    · exact .inr ⟨_, _, rfl, rfl⟩
  all_goals first | exact .inl ⟨_, rfl, rfl⟩ | exact .inr ⟨_, _, rfl, rfl⟩

private theorem flush_cases_alike (h : Row.Alike (s.row? o.id) (t.row? o.id)) :
    (∃ f, o.flush s = .failed (s, o) f ∧ o.flush t = .failed (t, o) f) ∨
      ∃ s' t' a, a.state = o.state ∧ o.flush s = .done (s', a) () ∧
        o.flush t = .done (t', a) () := by
  cases hp : o.state.isPersistent with
  | false =>
    rw [flush_of_not_persistent hp, flush_of_not_persistent hp]
    exact .inr ⟨s, t, o, rfl, rfl, rfl⟩
  | true =>
    rw [flush, flush, if_pos hp, if_pos hp]
    rcases written_cases h with ⟨f, hs, ht⟩ | ⟨s', t', hs, ht⟩ <;> rw [hs, ht]
    · exact .inl ⟨f, rfl, rfl⟩
    · exact .inr ⟨s', t', { o with cache := o.cache.clearDirty }, rfl, rfl, rfl⟩

/-- Over the two stores the call does the same to the instance and answers the same. -/
def SameOver {α : Type} (a b : Outcome (Store × Instance) α) : Prop :=
  a.after.2 = b.after.2 ∧ a.answer = b.answer

private theorem flush_sameOver (h : Row.Alike (s.row? o.id) (t.row? o.id)) :
    SameOver (o.flush s) (o.flush t) := by
  rcases flush_cases_alike h with ⟨f, hs, ht⟩ | ⟨s', t', a, _, hs, ht⟩ <;> rw [hs, ht] <;>
    exact ⟨rfl, rfl⟩

private theorem detach_sameOver (tx : Transaction) (h : Row.Alike (s.row? o.id) (t.row? o.id)) :
    SameOver (o.detach tx s) (o.detach tx t) := by
  rw [detach, detach]
  split
  · next hc =>
    split
    · exact ⟨rfl, rfl⟩
    · rcases flush_cases_alike h with ⟨f, hs, ht⟩ | ⟨s', t', a, hstate, hs, ht⟩ <;> rw [hs, ht]
      · exact ⟨rfl, rfl⟩
      · -- whoever has pending changes is detached without a look at its row
        simp only [hasPendingChanges, Bool.and_eq_true, Bool.not_eq_true'] at hc
        have hp : a.state.isPersistent = true := hstate ▸ hc.1.1
        have hd : a.state.isDeleted = false := hstate ▸ hc.2
        simp only [Outcome.andThen_done, apply_detach _ _ hp hd]
        exact ⟨rfl, rfl⟩
  · rw [apply_congr tx _ h]
    exact ⟨rfl, rfl⟩

/-- No call can tell a short row from one that is continued by nulls. -/
theorem call_sameOver (tx : Transaction) (c : Call) (h : Row.Alike (s.row? o.id) (t.row? o.id)) :
    SameOver (o.call tx c s) (o.call tx c t) := by
  cases c with
  | read field =>
    have hfield : (o.withField field fun n => o.readField tx s n) =
        o.withField field fun n => o.readField tx t n := by
      simp only [readField_congr tx _ h]
    simp only [call, hfield]
    exact ⟨rfl, rfl⟩
  | write field v =>
    have hfield : (o.withField field fun n => o.writeField tx s n v) =
        o.withField field fun n => o.writeField tx t n v := by
      simp only [writeField_congr tx _ v h]
    simp only [call, hfield]
    exact ⟨rfl, rfl⟩
  | flush =>
    obtain ⟨hafter, hanswer⟩ := flush_sameOver h
    exact ⟨hafter, congrArg (·.map fun _ => Answer.done) hanswer⟩
  | detach =>
    obtain ⟨hafter, hanswer⟩ := detach_sameOver tx h
    exact ⟨hafter, congrArg (·.map Answer.state) hanswer⟩
  | setPlan plan => exact ⟨rfl, rfl⟩
  | perform e =>
    simp only [call, perform_congr e h]
    exact ⟨rfl, rfl⟩
  | _ =>
    simp only [call, apply_congr tx _ h]
    exact ⟨rfl, rfl⟩

end Instance

end Lifecycle
