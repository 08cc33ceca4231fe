import Lifecycle.Proofs.Following
import Lifecycle.Proofs.Reading

/-! A value that was written stays in memory until it is settled, one way or the other. What else is
read, loaded, written, evicted or asked of the instance until then does not touch it. -/
namespace Lifecycle

namespace Instance
variable {tx tx' : Transaction} {store : Store} {r : Request} {o o' : Instance} {c : Call}
  {schema : Schema} {n m : Nat} {v u : Value}

/-- The field holds a value that was written and is still to be settled. -/
structure Pending (schema : Schema) (n : Nat) (v : Value) (o : Instance) : Prop where
  schema : o.schema = schema
  changed : o.state.isUnchanged = false
  live : o.state.isDeleted = false
  slot : o.cache.slot? n = some (.written v)

/-- The call settles no changes, and it does not write the field. -/
def Call.LeavesWrite (schema : Schema) (n : Nat) : Call → Prop
  | .refresh | .deletePersistent | .detach | .flush => False
  | .write field _ => field.resolve schema ≠ .ok n
  | _ => True

namespace Pending

private theorem of_write (hs : o.Sized) (h : o.writeField tx store n v = .done o' ()) :
    o'.Pending o.schema n v := by
  obtain ⟨hn, a, s, happ, rfl⟩ := writeField_eq_done h
  have hafter : (o.apply tx store .writeField).after = a := congrArg (·.after) happ
  have hschema : a.schema = o.schema := hafter ▸ (apply_frame tx store .writeField o).2
  have hsized : a.Sized := hafter ▸ Sized.keptByWork.applied hs
  have hsize : n < a.cache.size := by rw [hsized.slots, hschema]; exact hn
  obtain ⟨m, hm, hstate⟩ := apply_done (by simp) happ
  refine ⟨hschema, ?_, ?_, Cache.slot?_put_self hsize⟩
  · exact (congrArg State.isUnchanged hstate).trans (next_of_writeField m hm)
  · exact (congrArg State.isDeleted hstate).trans (isDeleted_of_writeField m hm)

private theorem apply (h : o.Pending schema n v) (hr : r.keepsChanges) :
    (o.apply tx store r).after.Pending schema n v := by
  obtain ⟨hstate, hslot⟩ := apply_along tx store
    (S := fun s => s.isUnchanged = false ∧ s.isDeleted = false)
    (P := fun a => a.cache.slot? n = some (.written v)) (next_of_changed hr h.changed h.live)
    (fun _ _ _ he hp ha => perform_loaded he hp ha rfl) (fun _ _ ha => ha) ⟨h.changed, h.live⟩
    h.slot
  exact ⟨(apply_frame ..).2.trans h.schema, hstate.1, hstate.2, hslot⟩

private theorem readField (h : o.Pending schema n v) :
    (o.readField tx store m).after.Pending schema n v := by
  -- A read loads its field only if it is missing, and a written field is not.
  refine readField_kept (P := Pending schema n v) (T := Pending schema n v) h
    (Outcome.meets_self.mpr (h.apply rfl)) (fun _ ha => ha) ?_
  intro a a' hmissing hl ha
  have hslot := load_missing_spares hmissing hl ha.slot rfl
  rcases load_cases hl with ⟨_, rfl⟩ | ⟨_, _, rfl⟩
  · exact ha
  · exact ⟨ha.schema, ha.changed, ha.live, hslot⟩

private theorem writeField (h : o.Pending schema n v) (hne : m ≠ n) :
    (o.writeField tx store m u).after.Pending schema n v := by
  refine writeField_kept (P := Pending schema n v) h (h.apply rfl) fun _ a _ _ ha => ?_
  refine ⟨ha.schema, ha.changed, ha.live, ?_⟩
  rw [Cache.slot?_put, if_neg hne]
  exact ha.slot

private theorem call (h : o.Pending schema n v) (hc : c.isOrdinary)
    (hw : c.LeavesWrite schema n) : (o.call tx c store).after.2.Pending schema n v := by
  cases c with
  | apply r => cases hc
  | perform e => cases hc
  | refresh | deletePersistent | detach | flush => exact hw.elim
  | read field => exact withField_kept (P := Pending schema n v) h fun _ _ => h.readField
  | write field u =>
    refine withField_kept (P := Pending schema n v) h fun m hm => h.writeField ?_
    rintro rfl
    exact hw (h.schema ▸ hm)
  | setPlan plan => exact ⟨h.schema, h.changed, h.live, h.slot⟩
  | _ => exact h.apply rfl

private theorem turn (h : o.Pending schema n v)
    (ht : o.Turn (Call.LeavesWrite schema n) tx tx' o') : o'.Pending schema n v := by
  cases ht with
  | passed => exact h
  | told store _ => exact h.apply rfl
  | evicted store => exact h.apply rfl
  | called store hc hw => exact h.call hc hw

private theorem of_readField (h : o.Pending schema n v) (hs : o.Sized) (hc : o.Complete)
    (hr : o.readField tx store n = .done o' u) : u = v := by
  have hafter : o'.Pending schema n v := by
    rw [← show (o.readField tx store n).after = o' from congrArg (·.after) hr]
    exact h.readField
  rw [(readField_value hs hc hr).1, Cache.value, hafter.slot]
  rfl

end Pending

end Instance

open Instance World

/-- A value that was written stands until it is settled: the field is loaded and changed and holds
it, and no read answers another one. -/
theorem pending_write_stands {w : World} (h : Reached ordinary w) {id : ObjectId} {o : Instance}
    (ho : w.session.object id = .ok o) {field : FieldRef} {n : Nat}
    (hn : field.resolve o.schema = .ok n) {v : Value} {a : Answer} {events : List Event}
    (hok : (w.call (.object id (.write field v))).answer = .ok a)
    (hrun : (w.call (.object id (.write field v))).after.Throughout
      (Respects id (Call.LeavesWrite o.schema n)) events) :
    ∃ o', (w.after (.call (.object id (.write field v)) :: events)).session.object id = .ok o' ∧
      o'.cache.slot? n = some (.written v) ∧
      ∀ (again : FieldRef) (u : Value), again.resolve o'.schema = .ok n →
        ((w.after (.call (.object id (.write field v)) :: events)).call
          (.object id (.read again))).answer = .ok (.value u) → u = v := by
  obtain ⟨m, o₁, hm, hwrite, _, ho₁⟩ := write_of_answer ho hok
  obtain rfl : m = n := Except.ok.inj (hm.symm.trans hn)
  have hsized := h.sized (Session.object_eq_ok ho).1
  have hreached : Reached ordinary (w.call (.object id (.write field v))).after :=
    h.step (e := .call (.object id (.write field v))) rfl
  obtain ⟨hlast, o', ho', hpending⟩ := hreached.follow
    (P := fun _ => Pending o.schema m v) (fun hturn hb => hb.turn hturn) ho₁
    (.of_write hsized hwrite) hrun
  refine ⟨o', ho', hpending.slot, fun again u hagain hread => ?_⟩
  obtain ⟨b, hb, _⟩ := World.readField_of_answer ho' hagain hread
  obtain ⟨hmem, _⟩ := Session.object_eq_ok ho'
  exact hpending.of_readField (hlast.sized hmem) (hlast.complete hmem) hb

def distractions : List Event :=
  [.foreign ⟨[(Sample.first, [.text "A-1", .integer 99])]⟩,
    .call (.object Sample.first (.retrieve false)), .call (.object Sample.first .evict),
    .call (.object Sample.first (.write (.name "number") (.text "B-2"))), .call .evictAll,
    .call (.persist Sample.account [.text "C-3", .integer 30]), .call .begin]

def distracted : World :=
  reopened.after (.call (.object Sample.first (.write (.name "balance") (.integer 11))) ::
    distractions)

/-- The row is changed by others, and the instance is retrieved, evicted and asked for what it is
refused. -/
theorem pending_write_stands_distracted :
    ∃ o', distracted.session.object Sample.first = .ok o' ∧
      o'.cache.slot? 1 = some (.written (.integer 11)) ∧
      ∃ u, (distracted.call (.object Sample.first (.read (.number 1)))).answer = .ok (.value u) ∧
        u = .integer 11 := by
  have hrun : (reopened.call (.object Sample.first
      (.write (.name "balance") (.integer 11)))).after.Throughout
        (Respects Sample.first (Call.LeavesWrite Sample.account 1)) distractions :=
    ⟨trivial, ⟨rfl, fun _ => trivial⟩, ⟨rfl, fun _ => trivial⟩, ⟨rfl, fun _ => nofun⟩, trivial,
      (by decide : Sample.second ≠ Sample.first), trivial, trivial⟩
  have hn : (FieldRef.name "balance").resolve reopenedInstance.schema = .ok 1 := rfl
  obtain ⟨o', ho', hslot, hread⟩ := pending_write_stands (Sample.reached_run (by decide))
    (o := reopenedInstance) rfl hn rfl hrun
  exact ⟨o', ho', hslot, _, rfl, hread (.number 1) _ rfl rfl⟩

end Lifecycle
