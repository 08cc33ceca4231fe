import Lifecycle.Proofs.Scripts

/-! Sessions that share a store. Each of them changes fields of the same row, and as long as no two
change the same field, the row has all the changes once everyone has committed, in whatever order
the calls are made. -/
namespace Lifecycle

open Session Instance

structure Shared (ι : Type) where
  store : Store
  ids : IdSource
  sessions : ι → Session

namespace Shared
variable {ι : Type} [DecidableEq ι] {w : Shared ι} {i j : ι} {c : Session.Call}

def world (w : Shared ι) (i : ι) : World :=
  ⟨w.store, w.ids, w.sessions i⟩

def call (i : ι) (c : Session.Call) (w : Shared ι) : Outcome (Shared ι) Answer :=
  ((w.world i).call c).within fun v => ⟨v.store, v.ids, Function.update w.sessions i v.session⟩

def after (w : Shared ι) (schedule : List (ι × Session.Call)) : Shared ι :=
  schedule.foldl (fun w (i, c) => (w.call i c).after) w

def callsOf (i : ι) (schedule : List (ι × Session.Call)) : List Session.Call :=
  (schedule.filter (·.1 = i)).map (·.2)

private theorem callsOf_cons_self (i : ι) (c : Session.Call) (rest : List (ι × Session.Call)) :
    callsOf i ((i, c) :: rest) = c :: callsOf i rest := by
  simp [callsOf]

private theorem callsOf_cons_other (h : j ≠ i) (c : Session.Call) (rest : List (ι × Session.Call)) :
    callsOf j ((i, c) :: rest) = callsOf j rest := by
  simp [callsOf, h.symm]

private theorem world_call_self : (w.call i c).after.world i = ((w.world i).call c).after := by
  simp [world, call, Outcome.within]

private theorem world_call_other (h : j ≠ i) (hids : ((w.world i).call c).after.ids = w.ids) :
    (w.call i c).after.world j =
      (w.world j).next (.foreign ((w.world i).call c).after.store) := by
  simp [world, call, Outcome.within, World.next, Function.update_of_ne h] at hids ⊢
  exact hids

end Shared

/-- The later row has the values that were written, whoever wrote them, and is the same otherwise.
-/
def Row.Merges {ι : Type} (writes : ι → Nat → Option Value) (before after : Row) : Prop :=
  ∀ n, (∀ i v, writes i n = some v → after.entry n = v) ∧
    ((∀ i, writes i n = none) → after.entry n = before.entry n)

private theorem Row.Merges.after_first {ι : Type} [DecidableEq ι] {writes : ι → Nat → Option Value}
    {before row after : Row} {i : ι}
    (hdisjoint : ∀ j k n, writes j n ≠ none → writes k n ≠ none → j = k)
    (hentry : ∀ n, row.entry n = (writes i n).getD (before.entry n))
    (h : row.Merges (Function.update writes i fun _ => none) after) :
    before.Merges writes after := by
  -- Of values for different fields, those of one writer may be put into the row first.
  have hothers : ∀ n, (∀ k, k ≠ i → writes k n = none) →
      ∀ k, Function.update writes i (fun _ => none) k n = none :=
    fun n hn => (Function.forall_update_iff writes fun _ values => values n = none).mpr ⟨rfl, hn⟩
  intro n
  obtain ⟨hvalues, hsame⟩ := h n
  constructor
  · intro j v hv
    by_cases hj : j = i
    · subst hj
      have hrest : ∀ k, k ≠ j → writes k n = none := by
        intro k hk
        refine Classical.not_not.mp fun hwrites => hk (hdisjoint k j n hwrites ?_)
        simp [hv]
      rw [hsame (hothers n hrest), hentry, hv]
      rfl
    · refine hvalues j v ?_
      rw [Function.update_of_ne hj]
      exact hv
  · intro hnone
    rw [hsame (hothers n fun k _ => hnone k), hentry, hnone i]
    rfl

namespace Shared
variable {ι : Type} [DecidableEq ι] {w : Shared ι} {schema : Schema} {id : ObjectId}
  {own : ι → Nat → Prop} {written : ι → Nat → Option Value} {schedule : List (ι × Session.Call)}
  {row : Row} {i : ι} {c : Session.Call}

private def due (schema : Schema) (written : ι → Nat → Option Value)
    (schedule : List (ι × Session.Call)) (i : ι) : Nat → Option Value :=
  writtenAfter schema (written i) (callsOf i schedule)

private theorem due_update (written : ι → Nat → Option Value) (i : ι) (now : Nat → Option Value) :
    due schema (Function.update written i now) schedule =
      Function.update (due schema written schedule) i
        (writtenAfter schema now (callsOf i schedule)) :=
  funext fun j => Function.apply_update
    (fun j values => writtenAfter schema values (callsOf j schedule)) written i now j

private theorem due_cons (written : ι → Nat → Option Value) (i : ι) (c : Session.Call) :
    due schema written ((i, c) :: schedule) =
      due schema (Function.update written i (c.writes schema (written i))) schedule := by
  rw [due_update]
  refine Function.eq_update_iff.mpr ⟨?_, fun j hj => ?_⟩
  · rw [due, callsOf_cons_self]
    rfl
  · rw [due, callsOf_cons_other hj]
    rfl

private def Underway (schema : Schema) (id : ObjectId) (own : ι → Nat → Prop)
    (written : ι → Nat → Option Value) (schedule : List (ι × Session.Call)) (w : Shared ι) : Prop :=
  ∀ i, (w.world i).Stage schema id (own i) (written i) (callsOf i schedule)

namespace Underway

private theorem next {now : Nat → Option Value}
    (h : Underway schema id own written ((i, c) :: schedule) w)
    (hids : ((w.world i).call c).after.ids = w.ids)
    (hs : w.store.SameDomain ((w.world i).call c).after.store)
    (hstage : ((w.world i).call c).after.Stage schema id (own i) now (callsOf i schedule)) :
    Underway schema id own (Function.update written i now) schedule (w.call i c).after := by
  refine (Function.forall_update_iff written fun j values =>
    ((w.call i c).after.world j).Stage schema id (own j) values (callsOf j schedule)).mpr ⟨?_, ?_⟩
  · rw [world_call_self]
    exact hstage
  · intro j hj
    have hj' := h j
    rw [callsOf_cons_other hj] at hj'
    rw [world_call_other hj hids]
    exact hj'.foreign hs

private theorem work (h : Underway schema id own written ((i, c) :: schedule) w) (hc : c ≠ .commit)
    (hrow : w.store.row? id = some row) (hown : Writable schema (own i)) :
    (w.call i c).after.store = w.store ∧
      Underway schema id own (Function.update written i (c.writes schema (written i))) schedule
        (w.call i c).after := by
  have hi := h i
  rw [callsOf_cons_self] at hi
  obtain ⟨hstore, hids, hstage⟩ := hi.work hc hrow hown
  exact ⟨hstore, h.next hids (fun k => by rw [hstore]; rfl) hstage⟩

private theorem commit (h : Underway schema id own written ((i, .commit) :: schedule) w)
    (hrow : w.store.row? id = some row) :
    callsOf i schedule = [] ∧ (∃ a, (w.call i .commit).answer = .ok a) ∧
      ∃ row', (w.call i .commit).after.store.row? id = some row' ∧
        (∀ n, row'.entry n = (written i n).getD (row.entry n)) ∧
        Underway schema id own (Function.update written i fun _ => none) schedule
          (w.call i .commit).after := by
  have hi := h i
  rw [callsOf_cons_self] at hi
  obtain ⟨hnil, hstores⟩ := hi.commit hrow
  obtain ⟨row', hrow', hentry⟩ := hstores.row
  refine ⟨hnil, hstores.answer, row', hrow', hentry, h.next rfl hstores.domain ?_⟩
  rw [hnil]
  exact .through fun _ => rfl

private theorem disjoint (h : Underway schema id own written schedule w)
    (hdisjoint : ∀ i j n, own i n → own j n → i = j) (i j : ι) (n : Nat)
    (hi : due schema written schedule i n ≠ none) (hj : due schema written schedule j n ≠ none) :
    i = j :=
  hdisjoint i j n ((h i).writtenAfter_own n hi) ((h j).writtenAfter_own n hj)

end Underway

private def Commits (w : Shared ι) (schedule : List (ι × Session.Call)) : Prop :=
  ∀ past i rest, schedule = past ++ (i, .commit) :: rest →
    ∃ a, ((w.after past).call i .commit).answer = .ok a

private theorem Commits.cons (hc : c = .commit → ∃ a, (w.call i c).answer = .ok a)
    (h : Commits (w.call i c).after schedule) : Commits w ((i, c) :: schedule) := by
  intro past j rest heq
  cases past with
  | nil =>
    cases heq
    exact hc rfl
  | cons first past =>
    cases heq
    exact h past j rest rfl

private theorem merges_of_underway (hown : ∀ i, Writable schema (own i))
    (hdisjoint : ∀ i j n, own i n → own j n → i = j) (hrow : w.store.row? id = some row)
    (h : Underway schema id own written schedule w) :
    Commits w schedule ∧ ∃ final, (w.after schedule).store.row? id = some final ∧
      row.Merges (due schema written schedule) final := by
  induction schedule generalizing w written row with
  | nil =>
    refine ⟨fun past i rest heq => by simp at heq, row, hrow, ?_⟩
    intro n
    refine ⟨fun i v hv => ?_, fun _ => rfl⟩
    have hnone := (h i).written_of_nil n
    rw [show written i n = some v from hv] at hnone
    cases hnone
  | cons step rest ih =>
    obtain ⟨i, c⟩ := step
    by_cases hc : c = .commit
    · subst hc
      obtain ⟨hnil, hok, row', hrow', hentry, hnext⟩ := h.commit hrow
      obtain ⟨hcommits, final, hfinal, hmerges⟩ := ih hrow' hnext
      refine ⟨hcommits.cons fun _ => hok, final, hfinal, ?_⟩
      have hnone : Session.Call.writes schema .commit (written i) = written i := rfl
      have hdue : due schema written ((i, .commit) :: rest) = due schema written rest := by
        rw [due_cons, hnone, Function.update_eq_self]
      have hmine : due schema written rest i = written i := by
        rw [due, hnil]
        rfl
      rw [due_update, hnil] at hmerges
      rw [hdue]
      exact Row.Merges.after_first (hdue ▸ h.disjoint hdisjoint) (hmine ▸ hentry) hmerges
    · obtain ⟨hstore, hnext⟩ := h.work hc hrow (hown i)
      rw [← hstore] at hrow
      obtain ⟨hcommits, final, hfinal, hmerges⟩ := ih hrow hnext
      refine ⟨hcommits.cons fun heq => absurd heq hc, final, hfinal, ?_⟩
      rw [due_cons]
      exact hmerges

end Shared

/-- Sessions over one store that write disjoint fields of a row lose nothing. Each of them begins a
transaction, finds the instance, reads and loads what it likes, writes its own fields and commits,
under any options. However the calls are interleaved, every commit succeeds, and in the end the row
has the last value of each field that was written, and every other entry as it was. -/
theorem disjoint_writes_merge {ι : Type} [DecidableEq ι] {w : Shared ι} {schema : Schema}
    {id : ObjectId} {own : ι → Nat → Prop} {schedule : List (ι × Session.Call)} {row : Row}
    (hready : ∀ i, (w.world i).Ready schema id) (hrow : w.store.row? id = some row)
    (hown : ∀ i, Writable schema (own i)) (hdisjoint : ∀ i j n, own i n → own j n → i = j)
    (hscript : ∀ i, Script schema id (own i) false false (Shared.callsOf i schedule)) :
    (∀ past i rest, schedule = past ++ (i, .commit) :: rest →
      ∃ a, ((w.after past).call i .commit).answer = .ok a) ∧
    ∃ final, (w.after schedule).store.row? id = some final ∧
      row.Merges (fun i => lastWritten schema (Shared.callsOf i schedule)) final := by
  have hstart : Shared.Underway schema id own (fun _ _ => none) schedule w :=
    fun i => (hready i).stage (hscript i)
  exact Shared.merges_of_underway hown hdisjoint hrow hstart

def ownedAccount : Schema :=
  ⟨"Account", .application, [.key "number", .plain "balance", .onDemand "owner"]⟩

def twoTellers : Shared Bool where
  store := ⟨[(Sample.first, [.text "A-1", .integer 10])]⟩
  ids := .counting
  sessions
    | true => .start { Options.standard with optimistic := true, retainValues := true }
    | false => .start { Options.standard with detachAllOnCommit := true }

def tellersSchedule : List (Bool × Session.Call) :=
  [(true, .begin), (false, .find ownedAccount Sample.first),
    (true, .find ownedAccount Sample.first), (false, .begin),
    (true, .object Sample.first (.write (.number 1) (.integer 11))),
    (false, .object Sample.first (.read (.name "balance"))),
    (false, .object Sample.first (.write (.name "owner") (.text "Ann"))), (false, .commit),
    (true, .object Sample.first (.retrieve false)),
    (true, .object Sample.first (.write (.name "balance") (.integer 12))), (true, .commit)]

/-- One session changes the balance, before and after the other has committed the owner. -/
theorem disjoint_writes_merge_tellers :
    (∃ a, ((twoTellers.after (tellersSchedule.take 7)).call false .commit).answer = .ok a) ∧
      ∃ final, (twoTellers.after tellersSchedule).store.row? Sample.first = some final ∧
        final.entry 0 = .text "A-1" ∧ final.entry 1 = .integer 12 ∧
        final.entry 2 = .text "Ann" := by
  have hready : ∀ i, (twoTellers.world i).Ready ownedAccount Sample.first := by
    rintro (_ | _) <;> exact World.fresh_ready ..
  have hrow : twoTellers.store.row? Sample.first = some [.text "A-1", .integer 10] := rfl
  have hown : ∀ i : Bool, Writable ownedAccount fun n => n = if i then 1 else 2 := by
    rintro (_ | _) n rfl <;> decide
  have hdisjoint : ∀ (i j : Bool) (n : Nat),
      (n = if i then 1 else 2) → (n = if j then 1 else 2) → i = j := by
    rintro (_ | _) (_ | _) n rfl <;> simp
  have hscript : ∀ i : Bool, Script ownedAccount Sample.first (fun n => n = if i then 1 else 2)
      false false (Shared.callsOf i tellersSchedule) := by
    rintro (_ | _)
    · exact .find (.begin (.work trivial (.work ⟨2, rfl, rfl⟩ .commit)))
    · exact .begin (.find (.work ⟨1, rfl, rfl⟩ (.work trivial (.work ⟨1, rfl, rfl⟩ .commit))))
  obtain ⟨hcommits, final, hfinal, hmerges⟩ :=
    disjoint_writes_merge hready hrow hown hdisjoint hscript
  refine ⟨hcommits (tellersSchedule.take 7) false (tellersSchedule.drop 8) rfl, final, hfinal,
    ?_, ?_, ?_⟩
  · refine (hmerges 0).2 ?_
    rintro (_ | _) <;> rfl
  · exact (hmerges 1).1 true _ rfl
  · exact (hmerges 2).1 false _ rfl

end Lifecycle
