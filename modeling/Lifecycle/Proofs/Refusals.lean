import Lifecycle.Proofs.Rollback

/-! What a refused call leaves behind, which is everything. Whoever is refused has not got as far as
the first change, and the work that follows a change is failed by the store alone. -/
namespace Lifecycle

namespace Outcome
variable {σ τ α β : Type} {s : σ} {o : Outcome σ α}

/-- Unless the store fails it, what fails leaves `s` as it was. -/
def Spares (s : σ) (o : Outcome σ α) : Prop :=
  ∀ f, o.answer = .error f → f.isStorage = false → o.after = s

private theorem spares_done (s' : σ) (a : α) : (done s' a).Spares s := by
  intro f hf
  cases hf

private theorem spares_failed (f : Failure) : (failed s f : Outcome σ α).Spares s :=
  fun _ _ _ => rfl

private theorem spares_of_storage (h : ∀ f, o.answer = .error f → f.isStorage = true) :
    o.Spares s := by
  intro f hf hs
  rw [h f hf] at hs
  cases hs

private theorem spares_of_ok {a : α} (h : o.answer = .ok a) : o.Spares s := by
  intro f hf
  rw [h] at hf
  cases hf

private theorem Spares.map {g : α → β} (h : o.Spares s) : (o.map g).Spares s :=
  fun f hf => h f (error_of_map hf)

private theorem Spares.within {g : σ → τ} (h : o.Spares s) : (o.within g).Spares (g s) :=
  fun f hf hs => congrArg g (h f hf hs)

private theorem Spares.andThen {next : σ → α → Outcome σ β} (h : o.Spares s)
    (hn : ∀ s' a, o = .done s' a → (next s' a).Spares s) : (o.andThen next).Spares s := by
  obtain ⟨s', answer⟩ := o
  cases answer with
  | ok a => exact hn s' a rfl
  | error f =>
    rintro g ⟨⟩ hs
    exact h f rfl hs

end Outcome

namespace Instance
open Outcome
variable {tx : Transaction} {store : Store} {o : Instance}

private theorem apply_spares (tx : Transaction) (store : Store) (r : Request) (o : Instance) :
    (o.apply tx store r).Spares o := by
  rcases apply_steps tx store r o with
    ⟨refusal, _, ha⟩ | ⟨m, a, _, ⟨f, hwork, ha⟩ | ⟨_, ha⟩⟩ <;> rw [ha]
  · exact spares_failed _
  · refine spares_of_storage fun g hg => ?_
    obtain ⟨_, _, hf⟩ := performAll_error (congrArg (·.answer) hwork)
    cases hg
    rw [hf]
    rfl
  · exact spares_done _ _

private theorem ifDeclared_spares {α : Type} {n : Nat} {go : Outcome Instance α}
    (h : go.Spares o) : (o.ifDeclared n go).Spares o := by
  rw [ifDeclared]
  split
  · exact h
  · exact spares_failed _

private theorem withField_spares {α : Type} (field : FieldRef) {go : Nat → Outcome Instance α}
    (h : ∀ n, (go n).Spares o) : (o.withField field go).Spares o := by
  rw [withField]
  split
  · next n _ => exact h n
  · exact spares_failed _

private theorem readField_spares (n : Nat) : (o.readField tx store n).Spares o := by
  refine ifDeclared_spares ((apply_spares tx store _ o).andThen fun a _ _ => ?_)
  -- the transition is made by now; only the load can still fail
  refine Spares.andThen (spares_of_storage fun f hf => ?_) fun _ _ _ => spares_done _ _
  rw [(supply_error hf).2.1]
  rfl

private theorem writeField_spares (n : Nat) (v : Value) : (o.writeField tx store n v).Spares o := by
  refine ifDeclared_spares ?_
  split
  · exact spares_failed _
  · exact (apply_spares tx store _ o).andThen fun _ _ _ => spares_done _ _

private theorem flush_spares : (o.flush store).Spares (store, o) :=
  spares_of_storage fun _ => flush_error

private theorem detach_spares : (o.detach tx store).Spares (store, o) := by
  rw [detach]
  split
  · next hc =>
    split
    · exact spares_failed _
    · refine flush_spares.andThen ?_
      rintro ⟨store', a⟩ _ ha
      -- what was flushed is not deleted, so it is detached
      have hs : a.state = o.state := by
        rw [← flush_state store o, ha]
        rfl
      simp only [hasPendingChanges, Bool.and_eq_true, Bool.not_eq_true'] at hc
      simp only [apply_detach tx store' (hs ▸ hc.1.1) (hs ▸ hc.2)]
      exact spares_done _ _
  · exact (apply_spares tx store _ o).within

private theorem call_spares {c : Call} (hc : c.isOrdinary) :
    (o.call tx c store).Spares (store, o) := by
  cases c with
  | apply r => cases hc
  | perform e => cases hc
  | read field => exact (withField_spares field fun n => readField_spares n).map.within
  | write field v => exact (withField_spares field fun n => writeField_spares n v).map.within
  | flush => exact flush_spares.map
  | detach => exact detach_spares.map
  | setPlan plan => exact spares_done _ _
  | _ => exact (apply_spares tx store _ o).map.within

end Instance

namespace World
open Outcome
variable {w : World}

private theorem onObject_spares (hs : ById.Sorted Instance.id w.session.objects) (id : ObjectId)
    {c : Instance.Call} (hc : c.isOrdinary) : (w.onObject id c).Spares w := by
  rw [onObject]
  split
  · exact spares_failed _
  · next o ho =>
    have hcall : (o.call w.session.tx c w.store).Spares (w.store, o) := Instance.call_spares hc
    have h := hcall.within (g := fun p => { w with store := p.1, session := w.session.manage p.2 })
    rwa [Session.manage_object hs ho] at h

private theorem begin_spares (hs : ById.Sorted Instance.id w.session.objects) :
    (Session.begin w.pair).Spares w.pair := by
  cases ha : w.session.tx.active with
  | true =>
    rw [Session.begin_of_active (w := w.pair) ha]
    exact spares_failed _
  | false =>
    obtain ⟨n, hn⟩ := Session.begin_ok (w := w.pair) hs ha
    exact spares_of_ok hn

private theorem commit_spares
    (he : Session.Everywhere (fun tx _ o => o.EnlistedExactly tx) w.pair) :
    (Session.commit w.pair).Spares w.pair := by
  cases ha : w.session.tx.active with
  | true => exact spares_of_storage fun _ => (Session.commit_fails_by_store ha he).of_error
  | false =>
    rw [Session.commit_of_inactive (w := w.pair) ha]
    exact spares_failed _

private theorem rollback_spares
    (he : Session.Everywhere (fun tx _ o => o.EnlistedExactly tx) w.pair) :
    (Session.rollback w.pair).Spares w.pair := by
  cases ha : w.session.tx.active with
  | true => exact spares_of_ok (Session.rollback_ok (w := w.pair) ha he)
  | false =>
    rw [Session.rollback_of_inactive (w := w.pair) ha]
    exact spares_failed _

private theorem persist_spares (schema : Schema) (values : List Value) :
    (w.call (.persist schema values)).Spares w := by
  have hp : (Session.persist w.ids.peek schema values w.pair).Spares w.pair := by
    rw [Session.persist]
    split
    · exact spares_failed _
    · simp only
      split
      · exact spares_failed _
      · exact spares_done _ _
  rw [call]
  generalize Session.persist w.ids.peek schema values w.pair = made at hp
  obtain ⟨p, answer⟩ := made
  cases answer with
  | ok id => exact spares_done _ _
  | error f =>
    -- no identity was drawn
    rintro g ⟨⟩ hs
    exact congrArg w.withPair (hp f rfl hs)

private theorem find_spares (schema : Schema) (id : ObjectId) (p : Store × Session) :
    (Session.find schema id p).Spares p := by
  rw [Session.find]
  split
  · exact spares_done _ _
  · split
    · exact spares_done _ _
    · exact spares_failed _

end World

/-- A refusal changes nothing. Whatever is asked of a session or one of its instances, and however
it got where it is: if the call fails and not for the store, the rows, the transaction, the managed
instances and all that is known of each of them are as they were. -/
theorem refusal_changes_nothing {w : World} (h : Reached ordinary w) {c : Session.Call}
    (hc : c.isOrdinary) {f : Failure} (hf : (w.call c).answer = .error f)
    (hs : f.isStorage = false) : (w.call c).after = w := by
  have he := h.enlistedExactly
  revert f
  change (w.call c).Spares w
  cases c with
  | begin => exact (World.begin_spares he.sorted).map.within
  | commit => exact (World.commit_spares he).map.within
  | rollback => exact (World.rollback_spares he).map.within
  | persist schema values => exact World.persist_spares schema values
  | find schema id => exact (World.find_spares schema id w.pair).map.within
  | evictAll =>
    have hok : (Session.evictAll w.pair).Spares w.pair :=
      Outcome.spares_of_ok (Session.evictAll_ok he.sorted)
    exact hok.map.within
  | object id c => exact World.onObject_spares he.sorted id hc
  | beginTransaction => cases hc
  | finishTransaction => cases hc

def changing : World :=
  Sample.run { Options.standard with restoreValues := true }
    [.begin, .persist Sample.account [.text "A-1", .integer 10], .commit, .begin,
      .object Sample.first (.write (.number 1) (.integer 20))]

/-- An instance with a change and a snapshot is not detached in an open transaction. -/
theorem refusal_changes_nothing_changing :
    (changing.call (.object Sample.first .detach)).answer =
        .error (.invalidOperation Sample.first .persistentDirty .detach
          "pending changes must be committed before detaching") ∧
      (changing.call (.object Sample.first .detach)).after = changing :=
  have hrefused : (changing.call (.object Sample.first .detach)).answer =
      .error (.invalidOperation Sample.first .persistentDirty .detach
        "pending changes must be committed before detaching") := rfl
  ⟨hrefused, refusal_changes_nothing (Sample.reached_run (by decide)) rfl hrefused rfl⟩

end Lifecycle
