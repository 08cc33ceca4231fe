import Lifecycle.Proofs.Columnar
import Lifecycle.Proofs.ShortRows

/-! No access to a field is out of range. Every instance that a session manages has the slots of its
class, bare transitions and effects included, and as long as it has them its calls stay within its
columns. -/
namespace Lifecycle

namespace FieldRef

def Undeclared (schema : Schema) : FieldRef → Prop
  | number n => schema.fieldCount ≤ n
  | name s => ∀ f ∈ schema.fields, f.name ≠ s

def text : FieldRef → String
  | number n => toString n
  | name s => s

end FieldRef

structure Visit where
  tx : Transaction
  store : Store
  call : Instance.Call

def Instance.visited (o : Instance) (visits : List Visit) : Instance :=
  visits.foldl (fun o v => (o.call v.tx v.call v.store).after.2) o

namespace Columnar

/-- There is an entry for each field of the class in each column, also in the snapshot. -/
structure Fits (o : Columnar) : Prop where
  fields : o.fields.Fits o.schema.fieldCount
  saved : ∀ columns, o.saved = some columns → columns.Fits o.schema.fieldCount

def visited (o : Columnar) (visits : List Visit) : Option Columnar :=
  visits.foldlM (fun o v => do
    let called ← o.call v.tx v.call v.store
    return called.after.2) o

end Columnar

namespace Instance
variable {tx : Transaction} {store : Store} {o o' : Instance}

namespace Sized

private theorem fits (h : o.Sized) : o.columnar.Fits := by
  refine ⟨?_, ?_⟩
  · have hfits := Columns.fits_ofSlots o.cache.slots
    rwa [show o.cache.slots.length = o.schema.fieldCount from h.slots] at hfits
  · intro columns hc
    obtain ⟨slots, hslots, rfl⟩ := Option.map_eq_some_iff.mp hc
    have hfits := Columns.fits_ofSlots slots
    rwa [h.saved slots hslots] at hfits

private theorem call (tx : Transaction) (store : Store) (c : Call) (h : o.Sized) :
    (o.call tx c store).after.2.Sized :=
  keptByWork.every_call (fun hp h => h.perform hp) c h

private theorem visited_columnar (visits : List Visit) (h : o.Sized) :
    (o.visited visits).Sized ∧
      o.columnar.visited visits = some (o.visited visits).columnar := by
  induction visits generalizing o with
  | nil => exact ⟨h, rfl⟩
  | cons v rest ih =>
    obtain ⟨hsized, hvisited⟩ := ih (h.call v.tx v.store v.call)
    refine ⟨hsized, ?_⟩
    rw [Columnar.visited, List.foldlM_cons, call_columnar v.tx v.store v.call h]
    exact hvisited

end Sized

/-- A field that is not declared is neither read nor written. -/
theorem call_undeclared (tx : Transaction) (store : Store) {field : FieldRef}
    (h : field.Undeclared o.schema) :
    o.call tx (.read field) store =
        .failed (store, o) (.unknownField o.schema.name field.text) ∧
      ∀ v, o.call tx (.write field v) store =
        .failed (store, o) (.unknownField o.schema.name field.text) := by
  cases field with
  | number n =>
    have hn : ¬ n < o.schema.fieldCount := Nat.not_lt.mpr h
    simp only [Instance.call, withField, FieldRef.resolve, readField, writeField, ifDeclared,
      if_neg hn]
    exact ⟨rfl, fun _ => rfl⟩
  | name s =>
    have hnone : o.schema.fieldNumber? s = none := Schema.fieldNumber?_eq_none_iff.mpr h
    simp only [Instance.call, withField, FieldRef.resolve, Schema.requireField, hnone]
    exact ⟨rfl, fun _ => rfl⟩

private theorem load_short {selected : Nat → Slot → Bool} {row : Row} {n : Nat} {s : Slot}
    (hl : o.load store selected = .ok o') (hrow : store.row? o.id = some row)
    (hs : o.cache.slot? n = some s) (hsel : selected n s = true) (hn : row.length ≤ n) :
    o'.cache.slot? n = some (.clean .null) := by
  rcases load_cases hl with ⟨hnone, _⟩ | ⟨row', hrow', rfl⟩
  · have hmem : n ∈ o.cache.fieldsWhere selected := Cache.mem_fieldsWhere.mpr ⟨s, hs, hsel⟩
    rw [hnone] at hmem
    cases hmem
  · cases hrow.symm.trans hrow'
    rw [Cache.slot?_load, hs]
    simp only [Option.map_some, hsel, if_true]
    exact congrArg (some ∘ Slot.clean) (Row.entry_of_length_le hn)

/-- Every index into the fields of the instance is in range, now and in any further calls. A field
that is not declared is told to be unknown, and what a row lacks is null. -/
structure InRange (o : Instance) : Prop where
  fits : o.columnar.Fits
  calls : ∀ tx store c, o.columnar.call tx c store =
    some ((o.call tx c store).within fun p => (p.1, p.2.columnar))
  visits : ∀ visits, (o.visited visits).columnar.Fits ∧
    o.columnar.visited visits = some (o.visited visits).columnar
  undeclared : ∀ tx store field, field.Undeclared o.schema →
    o.call tx (.read field) store =
        .failed (store, o) (.unknownField o.schema.name field.text) ∧
      ∀ v, o.call tx (.write field v) store =
        .failed (store, o) (.unknownField o.schema.name field.text)
  missing : ∀ store selected o' row n s, o.load store selected = .ok o' →
    store.row? o.id = some row → o.cache.slot? n = some s → selected n s = true →
    row.length ≤ n → o'.cache.slot? n = some (.clean .null)
  short : ∀ tx c s t, Row.Alike (s.row? o.id) (t.row? o.id) →
    SameOver (o.call tx c s) (o.call tx c t)

private theorem Sized.inRange (h : o.Sized) : o.InRange where
  fits := h.fits
  calls tx store c := call_columnar tx store c h
  visits visits := ⟨(h.visited_columnar visits).1.fits, (h.visited_columnar visits).2⟩
  undeclared tx store _ hf := call_undeclared tx store hf
  missing _ _ _ _ _ _ hl hrow hs hsel hn := load_short hl hrow hs hsel hn
  short tx c _ _ h := call_sameOver tx c h

end Instance

/-- Whatever happens to a session and its store, every access to the fields of a managed instance is
in range, from the columns it starts with on. -/
theorem columns_in_range {w : World} (h : Reached anything w) {o : Instance}
    (ho : o ∈ w.session.objects) :
    o.InRange ∧
      (∀ id schema values, Columnar.create id schema values =
        (Instance.create id schema values).map Instance.columnar) ∧
      ∀ store id schema, Columnar.hollow store id schema =
        some ((Instance.hollow store id schema).map Instance.columnar) :=
  ⟨(h.sized_of_anything ho).inRange, Instance.create_columnar, Instance.hollow_columnar⟩

def ragged : World :=
  (World.fresh .empty .counting .standard).after
    [.call .begin, .call (.persist Sample.account [.text "A-1", .integer 10]),
      .call (.object Sample.first (.apply .commit)), .call .finishTransaction,
      .foreign ⟨[(Sample.first, [.text "A-1"])]⟩, .call .beginTransaction]

def raggedInstance : Instance where
  id := Sample.first
  schema := Sample.account
  plan := .standard
  cache := ⟨[.clean (.text "A-1"), .unloaded], none⟩
  state := .hollow
  enlisted := false
  connected := true

/-- Others have left a row without a balance. It is read as null, and the next field is unknown. -/
theorem columns_in_range_ragged :
    raggedInstance ∈ ragged.session.objects ∧ raggedInstance.InRange ∧
      (raggedInstance.call ragged.session.tx (.read (.number 1)) ragged.store).answer =
        .ok (.value .null) ∧
      raggedInstance.call ragged.session.tx (.read (.number 2)) ragged.store =
        .failed (ragged.store, raggedInstance) (.unknownField "Account" "2") := by
  have hmem : raggedInstance ∈ ragged.session.objects := List.Mem.head []
  have hreached : Reached anything ragged :=
    Reached.after (.fresh .empty .counting .standard) fun _ _ _ => trivial
  obtain ⟨hrange, _⟩ := columns_in_range hreached hmem
  exact ⟨hmem, hrange, rfl, (hrange.undeclared _ _ (.number 2) (Nat.le_refl 2)).1⟩

end Lifecycle
