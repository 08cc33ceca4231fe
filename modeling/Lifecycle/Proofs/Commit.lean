import Lifecycle.Proofs.Coherence
import Lifecycle.Proofs.Origins
import Lifecycle.Proofs.Retrieving

/-! What a commit does when it succeeds: to the row of every instance, to its state and to its
fields. -/
namespace Lifecycle

/-- The changed fields are written over the row, and every other entry is as it was. Where there is
no row there is nothing to write. -/
def Cache.Overwrites (c : Cache) (before after : Option Row) : Prop :=
  (before = none ∧ after = none ∧ c.changes = []) ∨
    ∃ row row', before = some row ∧ after = some row' ∧
      ∀ n, row'.entry n = if c.isDirty n then c.value n else row.entry n

private theorem Cache.overwrites_same (row? : Option Row) {c : Cache} (h : c.changes = []) :
    c.Overwrites row? row? := by
  cases row? with
  | none => exact .inl ⟨rfl, rfl, h⟩
  | some row =>
    refine .inr ⟨row, row, rfl, rfl, fun n => ?_⟩
    have hn := c.entry_update row n
    rwa [h] at hn

namespace Instance
variable {tx : Transaction} {store store' : Store} {a o : Instance} {before after : Option Row}

/-- What a commit makes of the row of the instance: all of it, nothing, or what was changed. -/
def CommitsRow (o : Instance) (before after : Option Row) : Prop :=
  match o.state with
  | .persistentNew => after = some o.cache.values
  | .persistentDeleted => after = none
  | .persistentDirty | .nontransactionalDirty => o.cache.Overwrites before after
  | _ => after = before

/-- What a successful commit makes of an instance and its row. -/
structure Committed (options : Options) (o : Instance) (before : Option Row) (o' : Instance)
    (after : Option Row) : Prop where
  row : o.CommitsRow before after
  state : o'.state = o.state.afterCommit options
  untouched : o'.state = o.state → o' = o
  loaded : options.detachAllOnCommit → o.state.isPersistent → o.state.isDeleted = false →
    ∀ n ∈ o.schema.planFields o.plan, o'.cache.isLoaded n = true

section Row

private theorem overwrites_of_update {cache : Cache} {id : ObjectId}
    (h : store.update id cache.changes = .ok store') :
    cache.Overwrites (store.row? id) ((store.row? id).map (·.update cache.changes)) := by
  simp only [Store.update] at h
  split at h
  · next row hrow =>
    rw [hrow]
    exact .inr ⟨row, row.update cache.changes, rfl, rfl, cache.entry_update row⟩
  · cases h

/-- What is written is what a commit is to make of the row. -/
theorem commitsRow_of_written (hp : o.state.isPersistent)
    (hw : o.written store = .ok store') :
    o.CommitsRow (store.row? o.id) (store'.row? o.id) := by
  rw [row?_of_written hw, if_pos rfl]
  have hoverwrites : o.state.isNew = false → o.state.isDeleted = false → o.state.isDirty →
      o.cache.Overwrites (store.row? o.id) (o.rowWritten (store.row? o.id)) := by
    intro hnew hdel hdirty
    simp only [written, rowWritten, hnew, hdel, hdirty, true_and] at hw ⊢
    split at hw
    · next hc =>
      rw [if_pos hc]
      exact overwrites_of_update hw
    · next hc =>
      rw [if_neg hc]
      exact Cache.overwrites_same _ (Classical.not_not.mp hc)
  rw [CommitsRow]
  cases hs : o.state
  case persistentDirty | nontransactionalDirty =>
    exact hoverwrites (by rw [hs]; rfl) (by rw [hs]; rfl) (by rw [hs]; rfl)
  case transient | transientClean | transientDirty | detachedClean | detachedDirty =>
    rw [hs] at hp
    cases hp
  all_goals simp [rowWritten, hs, State.isNew, State.isDeleted, State.isDirty]

private theorem commitsRow_of_not_persistent (h : o.state.isPersistent = false)
    (row? : Option Row) : o.CommitsRow row? row? := by
  rw [CommitsRow]
  revert h
  cases o.state <;> simp [State.isPersistent]

end Row

/-- A row comes by a new instance, and goes by a deletion. -/
theorem CommitsRow.isSome (h : o.CommitsRow before after)
    (hn : o.state ≠ .persistentNew) (hd : o.state ≠ .persistentDeleted) :
    after.isSome = before.isSome := by
  have hoverwrites : o.cache.Overwrites before after → after.isSome = before.isSome := by
    rintro (⟨rfl, rfl, _⟩ | ⟨row, row', rfl, rfl, _⟩) <;> rfl
  rw [CommitsRow] at h
  cases hs : o.state <;> rw [hs] at h <;> simp only at h
  case persistentNew => exact absurd hs hn
  case persistentDeleted => exact absurd hs hd
  case persistentDirty | nontransactionalDirty => exact hoverwrites h
  all_goals rw [h]

section Flush

private def flushed (o : Instance) : Instance :=
  if o.enlisted && o.state.isPersistent then { o with cache := o.cache.clearDirty } else o

private theorem flushed_of_changed (he : o.enlisted) (hp : o.state.isPersistent) :
    o.flushed = { o with cache := o.cache.clearDirty } :=
  if_pos (by simp [he, hp])

private theorem flushed_of_spared (h : (o.enlisted && o.state.isPersistent) = false) :
    o.flushed = o :=
  if_neg (by simp [h])

private theorem flushed_frame (o : Instance) :
    o.flushed.id = o.id ∧ o.flushed.schema = o.schema ∧ o.flushed.plan = o.plan := by
  rw [flushed]
  split <;> exact ⟨rfl, rfl, rfl⟩

private theorem flushed_state (o : Instance) :
    o.flushed.state = o.state ∧ o.flushed.enlisted = o.enlisted := by
  rw [flushed]
  split <;> exact ⟨rfl, rfl⟩

private theorem flushed_kept {J : Instance → Prop} (k : KeptByWork J) (h : J o) : J o.flushed := by
  rw [flushed]
  split
  · exact k.flushed h
  · exact h

private theorem flush_commits (store : Store) (he : o.enlisted) :
    (o.flush store).Yields
      (fun p => p.2 = o.flushed ∧ o.CommitsRow (store.row? o.id) (p.1.row? p.2.id))
      fun _ => True := by
  cases hp : o.state.isPersistent with
  | false =>
    have hspared : o.flushed = o := flushed_of_spared (by rw [hp, Bool.and_false])
    rw [flush_of_not_persistent hp]
    exact ⟨hspared.symm, commitsRow_of_not_persistent hp _⟩
  | true =>
    rcases flush_cases store hp with ⟨f, _, hf⟩ | ⟨s, hw, hf⟩
    · rw [hf]
      trivial
    · rw [hf]
      exact ⟨(flushed_of_changed he hp).symm, commitsRow_of_written hp hw⟩

private theorem unlisted_commits (ha : tx.active) (h : o.EnlistedExactly tx)
    (he : o.enlisted = false) (row? : Option Row) : o = o.flushed ∧ o.CommitsRow row? row? := by
  -- Who is not enlisted in an open transaction has nothing to write.
  refine ⟨(flushed_of_spared (by rw [he, Bool.false_and])).symm, ?_⟩
  obtain ⟨ht, hd⟩ := EnlistedExactly.unlisted ha h he
  rw [CommitsRow]
  revert ht hd
  cases o.state <;> simp [State.isTransactional]

end Flush

section Detach

private def Parted (options : Options) (a o : Instance) : Prop :=
  if options.detachAllOnCommit && a.state.isPersistent && !a.state.isDeleted then
    o.state = .detachedClean ∧ ∀ n ∈ a.schema.planFields a.plan, o.cache.isLoaded n = true
  else o = a.flushed

private theorem detaching_parts (store : Store) (ha : tx.options.detachAllOnCommit)
    (hp : a.state.isPersistent) (hd : a.state.isDeleted = false) (hs : a.Sized) (hc : a.Complete) :
    (Session.detaching tx store a.flushed).Yields
      (fun p => p.1 = store ∧ p.2.id = a.id ∧ a.Parted tx.options p.2) fun _ => True := by
  obtain ⟨hid, hschema, hplan⟩ := flushed_frame a
  have hstate := (flushed_state a).1
  refine Session.detaching_yields (Q := fun s b => s = store ∧ b.id = a.id ∧ a.Parted tx.options b)
    (P := fun _ b => b.id = a.id ∧ b.state.isPersistent ∧ b.state.isDeleted = false ∧
      ∀ n ∈ a.schema.planFields a.plan, b.cache.isLoaded n = true) ?_ ?_
  · have hframe := apply_frame tx store (.retrieve true) a.flushed
    have hkept := apply_retrieve_state tx store true a.flushed
    have hfilled := (apply_retrieve (r := .retrieve true) tx store
      (flushed_kept Sized.keptByWork hs) (flushed_kept Complete.keptByWork hc) (hstate ▸ hp)
      (hstate ▸ hd) (.fetchPlan a.flushed) (by simp) rfl).2
    rw [hstate] at hkept
    cases h : a.flushed.apply tx store (.retrieve true) with
    | mk b answer =>
      rw [h] at hframe hkept hfilled
      cases answer with
      | error f => trivial
      | ok s =>
        refine ⟨hframe.1.trans hid, hkept.1.trans hp, hkept.2.trans hd, ?_⟩
        intro n hn
        rw [← hschema, ← hplan] at hn
        exact (hfilled s rfl).loaded n hn
  · rintro b ⟨hid, hpb, hdb, hloaded⟩
    rw [apply_detach tx store hpb hdb]
    refine ⟨rfl, (enter_id _).trans hid, ?_⟩
    rw [Parted, if_pos (by simp [ha, hp, hd])]
    refine ⟨enter_state _, fun n hn => ?_⟩
    rw [Outcome.done, enter_cache (by simp)]
    exact hloaded n hn

private theorem committed_of_detached (hrow : a.CommitsRow before after)
    (hc : (tx.options.detachAllOnCommit && a.state.isPersistent && !a.state.isDeleted) = true)
    (hs : o.state = .detachedClean)
    (hl : ∀ n ∈ a.schema.planFields a.plan, o.cache.isLoaded n = true) :
    a.Committed tx.options before o after := by
  simp only [Bool.and_eq_true, Bool.not_eq_true'] at hc
  obtain ⟨⟨hall, hp⟩, hd⟩ := hc
  refine ⟨hrow, ?_, ?_, fun _ _ _ => hl⟩
  · rw [hs]
    revert hp hd
    cases a.state <;> simp [State.isPersistent, State.isDeleted, State.afterCommit, hall]
  · intro hsame
    rw [← hsame, hs] at hp
    cases hp

end Detach

section End

private theorem commit_ends (store : Store) (h : a.Parted tx.options o)
    (hrow : a.CommitsRow before (store.row? o.id)) :
    (o.apply tx store .commit).Yields
      (fun o' => a.Committed tx.options before o' (store.row? o'.id)) fun _ => True := by
  rw [Parted] at h
  split at h
  · next hc =>
    have hidle : transition tx o.schema.identity .commit o.state = Move.stay o.state := by
      rw [h.1]
      rfl
    rw [apply_of_idle hidle rfl rfl]
    exact committed_of_detached hrow hc h.1 h.2
  · next hc =>
    have hstate : o.state = a.state := by rw [h, (flushed_state a).1]
    have hframe := apply_frame tx store .commit o
    cases happ : o.apply tx store .commit with
    | mk o' answer =>
      rw [happ] at hframe
      cases answer with
      | error f => trivial
      | ok t =>
        obtain ⟨m, hm, hnext⟩ := apply_done (by simp) happ
        obtain ⟨hafter, hidle⟩ := next_of_commit (by rw [hstate]; simpa using hc) m hm
        rw [hstate] at hafter hidle
        refine ⟨by rw [hframe.1]; exact hrow, hnext.trans hafter, ?_, ?_⟩
        · intro hsame
          have hstay : m.next = a.state := hnext.symm.trans hsame
          obtain ⟨hnone, hout⟩ := hidle hstay
          rw [apply_of_idle hm hnone (hstay.trans hstate.symm)] at happ
          cases happ
          exact h.trans (flushed_of_spared (by rw [hout, Bool.and_false]))
        · intro hall hp hd
          exact absurd (by simp [hall, hp, hd]) hc

private theorem commit_spares (ha : tx.active) (h : a.Parted tx.options o)
    (hk : a.EnlistedExactly tx) (he : o.enlisted = false) (hrow : a.CommitsRow before after) :
    a.Committed tx.options before o after := by
  rw [Parted] at h
  split at h
  · next hc => exact committed_of_detached hrow hc h.1 h.2
  · next hc =>
    rw [h, (flushed_state a).2] at he
    obtain ⟨ht, hd⟩ := hk.unlisted ha he
    obtain rfl : o = a := h.trans (flushed_of_spared (by rw [he, Bool.false_and]))
    refine ⟨hrow, ?_, fun _ => rfl, ?_⟩
    · revert hc ht hd
      cases o.state <;> simp [State.isTransactional, State.afterCommit, State.isPersistent,
        State.isDeleted]
    · intro hall hp hd
      exact absurd (by simp [hall, hp, hd]) hc

end End

end Instance

/-- What a successful commit makes of a world. -/
structure World.Committed (w w' : World) : Prop where
  closed : w'.session.tx = { w.session.tx with active := false }
  ids : w'.session.ids = w.session.ids
  rows : ∀ id, id ∉ w.session.ids → w'.store.row? id = w.store.row? id
  each : ∀ o ∈ w.session.objects, ∃ o' ∈ w'.session.objects, o'.id = o.id ∧
    o.Committed w.session.tx.options (w.store.row? o.id) o' (w'.store.row? o.id)

open Instance

namespace Session
variable {w : Store × Session}

private theorem commit_from (ha : w.2.tx.active) (hs : ById.Sorted Instance.id w.2.objects)
    (hk : ∀ a ∈ w.2.objects, a.EnlistedExactly w.2.tx ∧ a.Sized ∧ a.Complete) :
    (commit w).Yields (Holds { w.2.tx with active := false }
      (From w.2.objects fun a s o => a.Committed w.2.tx.options (w.1.row? a.id) o (s.row? o.id)))
      fun _ => True := by
  have hP : Holds w.2.tx (fun s o => o ∈ w.2.objects ∧ s.row? o.id = w.1.row? o.id) w :=
    ⟨rfl, hs, fun o ho => ⟨ho, rfl⟩⟩
  refine commit_yields (T := From w.2.objects fun a s o =>
      o = a.flushed ∧ a.CommitsRow (w.1.row? a.id) (s.row? o.id))
    (D := From w.2.objects fun a s o =>
      a.Parted w.2.tx.options o ∧ a.CommitsRow (w.1.row? a.id) (s.row? o.id))
    ?_ ?_ ?_ ?_ hP ha ?_ ?_ ?_ ?_ ?_ ?_
  · rintro s t o hrow ⟨ho, hsame⟩
    exact ⟨ho, hrow.trans hsame⟩
  · refine From.framed ?_
    rintro a s t o hrow ⟨ho, hc⟩
    exact ⟨ho, hrow ▸ hc⟩
  · refine From.framed ?_
    rintro a s t o hrow ⟨ho, hc⟩
    exact ⟨ho, hrow ▸ hc⟩
  · refine From.framed ?_
    intro a s t o hrow hc
    exact hrow ▸ hc
  · rintro s o he ⟨ho, hrow⟩
    refine (flush_commits s he).mono ?_
    rintro p ⟨hp, hc⟩
    refine ⟨o, ho, ?_, hp, hrow ▸ hc⟩
    rw [hp, (flushed_frame o).1]
  · rintro s o he ⟨ho, hrow⟩
    obtain ⟨hsame, hc⟩ := unlisted_commits ha (hk o ho).1 he (w.1.row? o.id)
    exact ⟨o, ho, rfl, hsame, hrow ▸ hc⟩
  · rintro hall s o hp hd ⟨a, hmem, hid, rfl, hc⟩
    rw [(flushed_state a).1] at hp hd
    obtain ⟨_, hsized, hcomplete⟩ := hk a hmem
    refine (detaching_parts s hall hp hd hsized hcomplete).mono ?_
    rintro p ⟨rfl, hpid, hparted⟩
    refine ⟨a, hmem, hpid.symm, hparted, ?_⟩
    rw [← hid] at hc
    rw [hpid]
    exact hc
  · rintro s o hspared ⟨a, hmem, hid, rfl, hc⟩
    rw [(flushed_state a).1] at hspared
    have hparted : a.Parted w.2.tx.options a.flushed := by
      rw [Parted, hspared]
      rfl
    exact ⟨a, hmem, hid, hparted, hc⟩
  · rintro s o he ⟨a, hmem, hid, hparted, hc⟩
    have hframe := (apply_frame w.2.tx s .commit o).1
    refine ((commit_ends s hparted hc).and_after (X := fun o' => o'.id = o.id) hframe).mono ?_
    rintro o' ⟨hcommitted, ho'⟩
    exact ⟨a, hmem, hid.trans ho'.symm, hcommitted⟩
  · rintro s o he ⟨a, hmem, hid, hparted, hc⟩
    exact ⟨a, hmem, hid, commit_spares ha hparted (hk a hmem).1 he hc⟩

end Session

/-- A commit that succeeds does what it is to do. -/
theorem Reached.committed {w : World} (h : Reached ordinary w) {n : UInt64}
    (hn : (Session.commit w.pair).answer = .ok n) : w.Committed (w.call .commit).after := by
  have henlisted := h.enlistedExactly
  have ha := Session.active_of_commit hn
  have hfrom := (Session.commit_from ha henlisted.sorted fun o ho =>
    ⟨henlisted.each o ho, h.sized ho, h.complete ho⟩).of_ok hn
  obtain ⟨hids, hrows⟩ := Session.commit_confined w.pair
  refine ⟨hfrom.tx, hids, hrows, ?_⟩
  intro o ho
  obtain ⟨o', hmem, hid, hcommitted⟩ := Session.Holds.of_from henlisted.sorted hfrom hids ho
  exact ⟨o', hmem, hid, hid ▸ hcommitted⟩

/-- The exact effect of a commit that succeeds. A new instance has its row, a deleted one has none,
the changed fields are written over their rows and over nothing else, and no other row is touched.
The transaction is closed, and everyone is where the options lead it, with its fetch plan loaded if
it was detached. -/
theorem commit_effect {w : World} (h : Reached ordinary w) {a : Answer}
    (hok : (w.call .commit).answer = .ok a) : w.Committed (w.call .commit).after := by
  obtain ⟨n, hn, _⟩ := Outcome.ok_of_map hok
  exact h.committed hn

def mixed : World :=
  Sample.run { Options.standard with detachAllOnCommit := true }
    [.begin, .persist Sample.account [.text "A-1", .integer 10],
      .persist Sample.account [.text "A-2", .integer 20], .commit, .begin,
      .object Sample.first .attach, .object Sample.first (.write (.number 1) (.integer 11)),
      .object Sample.second .attach, .object Sample.second .deletePersistent,
      .persist Sample.account [.text "A-3", .integer 30]]

/-- One instance was changed, one was deleted and one is new. The first two came back from being
detached. -/
theorem commit_effect_mixed :
    (mixed.call .commit).answer = .ok (.cycle 2) ∧ mixed.Committed (mixed.call .commit).after :=
  ⟨rfl, commit_effect (Sample.reached_run (by decide)) rfl⟩

end Lifecycle
