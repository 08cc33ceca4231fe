import Lifecycle.Proofs.Access
import Lifecycle.Proofs.History

/-! Writing a field. The state is asked first and may take a snapshot; the value is put in its place
last, so that a write that is refused has changed nothing. -/
namespace Lifecycle

namespace Instance
variable {tx : Transaction} {store : Store} {o o' : Instance} {n : Nat} {v : Value}

/-- The field can be written now: it is declared, it is not the key by which the row is found, and
an instance that stands for a row is not deleted and may be changed. -/
structure CanWrite (tx : Transaction) (n : Nat) (o : Instance) : Prop where
  declared : n < o.schema.fieldCount
  notKey : ¬ (o.schema.isPrimaryKey n = true ∧ o.state.isPersistent = true ∧
    o.state.isNew = false)
  permitted : o.state.isPersistent = true → o.state.isDeleted = false ∧
    (tx.active = true ∨ tx.options.nontransactionalWrite = true)

/-- `o'` is the instance `o` once `v` was written to field `n`: the value is loaded and dirty, the
other fields are as they were, and so is the snapshot, unless it is one of the fields before the
write. The state tells of the change, except of a transient instance, or of a transactional one
outside any transaction. -/
structure Wrote (tx : Transaction) (n : Nat) (v : Value) (o o' : Instance) : Prop where
  identity : o'.id = o.id ∧ o'.schema = o.schema ∧ o'.plan = o.plan
  connected : o'.connected = o.connected
  field : o'.cache.slot? n = some (.written v)
  others : ∀ m, m ≠ n → o'.cache.slot? m = o.cache.slot? m
  saved : o'.cache.saved = o.cache.saved ∨ o'.cache.saved = some o.cache.slots
  state : o'.state.isDirty = false ↔
    o'.state = .transient ∨ o'.state = .transientClean ∧ tx.active = false

private theorem apply_writeField_eq {m : Move} (store : Store)
    (hm : transition tx o.schema.identity .writeField o.state = .ok m) :
    ∃ saved, (saved = o.cache.saved ∨ saved = some o.cache.slots) ∧
      o.apply tx store .writeField =
        .done (enter m.next { o with cache := ⟨o.cache.slots, saved⟩ }) m.next := by
  -- Before the value is put in its place, the fields are at most saved.
  have hregular : m.Regular o.state := transition_regular (by simp) m hm
  rcases writeField_onFields m hm with hf | hf
  · refine ⟨o.cache.saved, .inl rfl, ?_⟩
    rw [apply_of_regular hm hregular, hf]
    rfl
  · refine ⟨some o.cache.slots, .inr rfl, ?_⟩
    rw [apply_of_regular hm hregular, hf]
    rfl

private theorem wrote_of_granted {m : Move} (store : Store) (v : Value) (hn : n < o.cache.size)
    (hm : transition tx o.schema.identity .writeField o.state = .ok m) :
    ∃ a, o.apply tx store .writeField = .done a m.next ∧
      o.Wrote tx n v { a with cache := a.cache.put n (.written v) } := by
  obtain ⟨saved, hsaved, happly⟩ := apply_writeField_eq store hm
  obtain ⟨hdirty, htransient⟩ := writeField_next m hm
  obtain ⟨hconnected, hcache⟩ :=
    enter_kept (o := { o with cache := ⟨o.cache.slots, saved⟩ }) htransient
  refine ⟨_, happly, ⟨enter_id _, enter_schema _, enter_plan _⟩, hconnected, ?_, ?_, ?_, ?_⟩
  · simp only [hcache]
    exact Cache.slot?_put_self hn
  · intro k hk
    simp only [hcache]
    rw [Cache.slot?_put, if_neg (Ne.symm hk)]
    rfl
  · simp only [hcache]
    exact hsaved
  · simp only [enter_state]
    exact hdirty

private theorem writeField_of_not_canWrite (store : Store) (v : Value) (hw : ¬ o.CanWrite tx n) :
    ∃ f, o.writeField tx store n v = .failed o f := by
  rw [writeField, ifDeclared]
  split
  · next hn =>
    split
    · exact ⟨_, rfl⟩
    · next hkey =>
      cases hm : transition tx o.schema.identity .writeField o.state with
      | error refusal =>
        refine ⟨refusal.failure o.id o.state .writeField, ?_⟩
        rw [apply, hm]
        rfl
      | ok m =>
        refine absurd ⟨hn, by simpa using hkey, ?_⟩ hw
        simpa [Transaction.permitsWrite] using writeField_granted_iff.mp ⟨m, hm⟩
  · exact ⟨_, rfl⟩

private theorem writeField_of_canWrite (store : Store) (v : Value)
    (hs : o.cache.size = o.schema.fieldCount) (hw : o.CanWrite tx n) :
    ∃ o', o.writeField tx store n v = .done o' () ∧ o.Wrote tx n v o' := by
  have hgranted : ∃ m, transition tx o.schema.identity .writeField o.state = .ok m :=
    writeField_granted_iff.mpr (by simpa [Transaction.permitsWrite] using hw.permitted)
  obtain ⟨m, hm⟩ := hgranted
  obtain ⟨a, happly, hwrote⟩ := wrote_of_granted store v (hs ▸ hw.declared) hm
  refine ⟨_, ?_, hwrote⟩
  rw [writeField, ifDeclared, if_pos hw.declared, if_neg (by simpa using hw.notKey), happly]
  rfl

/-- A field is written if and only if it can be. A write that succeeds changes one field and perhaps
the state, and it reaches no store; a write that fails changes nothing. -/
theorem write_contract (tx : Transaction) (store : Store) (o : Instance) (n : Nat) (v : Value)
    (hs : o.cache.size = o.schema.fieldCount) :
    (o.CanWrite tx n ∧ ∃ o', o.call tx (.write (.number n) v) store = .done (store, o') .done ∧
        o.Wrote tx n v o') ∨
      ¬ o.CanWrite tx n ∧
        ∃ f, o.call tx (.write (.number n) v) store = .failed (store, o) f := by
  by_cases hw : o.CanWrite tx n
  · obtain ⟨o', hdone, hwrote⟩ := writeField_of_canWrite store v hs hw
    exact .inl ⟨hw, o', call_write rfl hdone, hwrote⟩
  · obtain ⟨f, hfailed⟩ := writeField_of_not_canWrite store v hw
    refine .inr ⟨hw, f, ?_⟩
    simp only [call, withField, FieldRef.resolve, hfailed]
    rfl

def readAccount : Instance where
  id := Sample.first
  schema := Sample.account
  plan := .standard
  cache := ⟨[.clean (.text "A-1"), .unloaded], none⟩
  state := .nontransactional
  enlisted := false
  connected := true

/-- A stored account was read outside any transaction, and not its balance. -/
theorem write_contract_readAccount :
    readAccount.cache.size = readAccount.schema.fieldCount ∧
      (∃ o', readAccount.call (.opened .standard) (.write (.number 1) (.integer 5)) .empty =
          .done (.empty, o') .done ∧
        readAccount.Wrote (.opened .standard) 1 (.integer 5) o') ∧
      (∃ f, readAccount.call (.opened .standard) (.write (.number 0) (.text "A-2")) .empty =
        .failed (.empty, readAccount) f) ∧
      ∃ f, readAccount.call (.inactive .standard) (.write (.number 1) (.integer 5)) .empty =
        .failed (.empty, readAccount) f := by
  have hkey : ¬ readAccount.CanWrite (.opened .standard) 0 := by
    intro h
    exact h.notKey ⟨rfl, rfl, rfl⟩
  have houtside : ¬ readAccount.CanWrite (.inactive .standard) 1 := by
    intro h
    rcases (h.permitted rfl).2 with hactive | hwrite
    · cases hactive
    · cases hwrite
  have hbalance : readAccount.CanWrite (.opened .standard) 1 := by
    refine ⟨by decide, ?_, fun _ => ⟨rfl, .inl rfl⟩⟩
    rintro ⟨hkey, _⟩
    cases hkey
  refine ⟨rfl, ?_, ?_, ?_⟩
  · exact ((write_contract _ .empty readAccount 1 _ rfl).resolve_right fun h => h.1 hbalance).2
  · exact ((write_contract _ .empty readAccount 0 _ rfl).resolve_left fun h => hkey h.1).2
  · exact ((write_contract _ .empty readAccount 1 _ rfl).resolve_left fun h => houtside h.1).2

end Instance

end Lifecycle
