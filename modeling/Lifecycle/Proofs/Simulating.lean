import Lifecycle.Scenario.Simulation

/-! Scenarios that stop at their first failure, beside those that keep going. Both take the same
steps from the same start, so that the reports of the one are the first reports of the other, and
the flag that the loop carries along tells no more than its reports do. -/
namespace Lifecycle.Scenario

def anyFailed (reports : List Report) : Bool :=
  reports.any (·.error.isSome)

/-- Reports up to the first that tells of an error, and that one. -/
def upToFailure (reports : List Report) : List Report :=
  reports.take (reports.findIdx (·.error.isSome) + 1)

private theorem upToFailure_cons_failed {r : Report} (h : r.error.isSome = true)
    (rest : List Report) :
    upToFailure (r :: rest) = [r] := by
  simp [upToFailure, List.findIdx_cons, h]

private theorem upToFailure_cons_passed {r : Report} (h : r.error.isSome = false)
    (rest : List Report) :
    upToFailure (r :: rest) = r :: upToFailure rest := by
  simp [upToFailure, List.findIdx_cons, h]

private theorem upToFailure_ne_nil (r : Report) (rest : List Report) :
    upToFailure (r :: rest) ≠ [] :=
  List.cons_ne_nil _ _

private theorem anyFailed_cons (r : Report) (rest : List Report) :
    anyFailed (r :: rest) = (r.error.isSome || anyFailed rest) := rfl

private theorem anyFailed_upToFailure (reports : List Report) :
    anyFailed (upToFailure reports) = anyFailed reports := by
  -- Where the reports end after a failure, that failure is among them.
  induction reports with
  | nil => rfl
  | cons r rest ih =>
    cases hr : r.error.isSome with
    | true => simp [upToFailure_cons_failed hr, anyFailed_cons, hr]
    | false => rw [upToFailure_cons_passed hr, anyFailed_cons, anyFailed_cons, ih]

private theorem dropLast_upToFailure (reports : List Report) :
    (upToFailure reports).dropLast.all (·.error.isNone) = true := by
  induction reports with
  | nil => rfl
  | cons r rest ih =>
    cases hr : r.error.isSome with
    | true => rw [upToFailure_cons_failed hr]; rfl
    | false =>
      rw [upToFailure_cons_passed hr]
      cases rest with
      | nil => rfl
      | cons r' rest' =>
        rw [List.dropLast_cons_of_ne_nil (upToFailure_ne_nil r' rest'), List.all_cons, ih,
          Bool.and_true]
        simpa using hr

private theorem anyFailed_iff {reports : List Report} :
    anyFailed reports = true ↔ ∃ r ∈ reports, r.error ≠ none := by
  simp [anyFailed, Option.isSome_iff_ne_none]

namespace Simulation

/-- The reports of a run without a flag: it ends with the first that tells of an error, unless told
to keep going. -/
def run (keepGoing : Bool) : List Step → Simulation → List Report
  | [], _ => []
  | t :: rest, s =>
    let (s', r) := s.report t
    if r.error.isSome ∧ ¬ keepGoing then [r] else r :: run keepGoing rest s'

def after (steps : List Step) (s : Simulation) : Simulation :=
  steps.foldl (fun s t => (s.step t).1) s

private theorem report_after (s : Simulation) (t : Step) : (s.report t).1 = (s.step t).1 := by
  unfold report
  split
  next h => split <;> simp [h]

private theorem report_step (s : Simulation) (t : Step) : (s.report t).2.step = t.display := by
  unfold report
  split
  split <;> rfl

private theorem run_true_cons (t : Step) (rest : List Step) (s : Simulation) :
    run true (t :: rest) s = (s.report t).2 :: run true rest (s.report t).1 := by
  simp [run]

private theorem run_false_cons (t : Step) (rest : List Step) (s : Simulation) :
    run false (t :: rest) s =
      if (s.report t).2.error.isSome then [(s.report t).2]
      else (s.report t).2 :: run false rest (s.report t).1 := by
  simp [run]

/-- A run that keeps going reports each step from where the steps before it have led. -/
theorem getElem?_run (steps : List Step) (s : Simulation) (i : Nat) :
    (run true steps s)[i]? = steps[i]?.map fun t => ((s.after (steps.take i)).report t).2 := by
  induction steps generalizing s i with
  | nil => rfl
  | cons t rest ih =>
    rw [run_true_cons]
    cases i with
    | zero => rfl
    | succ i =>
      rw [List.getElem?_cons_succ, List.getElem?_cons_succ, ih, report_after]
      rfl

private theorem map_step_run (steps : List Step) (s : Simulation) :
    (run true steps s).map (·.step) = steps.map Step.display := by
  induction steps generalizing s with
  | nil => rfl
  | cons t rest ih => rw [run_true_cons, List.map_cons, List.map_cons, ih, report_step]

/-- Up to the first failure both runs are the same. -/
theorem run_false (steps : List Step) (s : Simulation) :
    run false steps s = upToFailure (run true steps s) := by
  induction steps generalizing s with
  | nil => rfl
  | cons t rest ih =>
    rw [run_false_cons, run_true_cons]
    cases hr : (s.report t).2.error.isSome with
    | true => rw [upToFailure_cons_failed hr]; rfl
    | false => rw [upToFailure_cons_passed hr, ← ih]; rfl

private theorem start_ok (options : Options) (active : Bool) (ids : IdSource) :
    ∃ first, start options active ids = .ok first := by
  cases active <;> exact ⟨_, rfl⟩

end Simulation

namespace Progress
variable {p : Progress} {keepGoing : Bool}

/-- Once round the loop is one step of the run. As long as the loop is not left, the flag is up only
if it does not matter. -/
theorem loop_eq (steps : List Step) (h : (p.failed && !keepGoing) = false) :
    (p.loop keepGoing steps).reports = p.reports ++ p.simulation.run keepGoing steps ∧
      (p.loop keepGoing steps).failed =
        (p.failed || anyFailed (p.simulation.run keepGoing steps)) := by
  induction steps generalizing p with
  | nil => simp [loop, Simulation.run, anyFailed]
  | cons t rest ih =>
    cases hleft : (p.next t).failed && !keepGoing with
    | true =>
      simp only [Bool.and_eq_true, Bool.not_eq_true'] at hleft
      obtain ⟨hfailed, rfl⟩ := hleft
      have hp : p.failed = false := by simpa using h
      have hr : (p.simulation.report t).2.error.isSome = true := by simpa [next, hp] using hfailed
      rw [loop, if_pos (by simp [hfailed]), Simulation.run_false_cons, if_pos hr]
      exact ⟨rfl, by simp [next, anyFailed]⟩
    | false =>
      have hstep : p.simulation.run keepGoing (t :: rest) =
          (p.simulation.report t).2 :: (p.next t).simulation.run keepGoing rest := by
        cases keepGoing with
        | true => exact Simulation.run_true_cons ..
        | false =>
          have hr : (p.simulation.report t).2.error.isSome = false := by
            simp only [next, Bool.not_false, Bool.and_true, Bool.or_eq_false_iff] at hleft
            exact hleft.2
          rw [Simulation.run_false_cons, hr]
          rfl
      rw [loop, if_neg (by simp [hleft]), (ih hleft).1, (ih hleft).2, hstep, anyFailed_cons]
      exact ⟨by simp [next], by simp [next, Bool.or_assoc]⟩

end Progress

private theorem simulate_eq {options : Options} {active : Bool} {ids : IdSource}
    {first : Simulation}
    (h : Simulation.start options active ids = .ok first) (steps : List Step) (keepGoing : Bool) :
    simulate steps options active keepGoing ids =
      .ok (first.run keepGoing steps, anyFailed (first.run keepGoing steps)) := by
  obtain ⟨hreports, hfailed⟩ :=
    Progress.loop_eq (p := ⟨first, [], false⟩) steps (Bool.false_and (!keepGoing))
  rw [simulate, h]
  exact congrArg Except.ok (Prod.ext hreports (hfailed.trans (Bool.false_or _)))

/-- A scenario that stops gives the first reports of the one that keeps going, up to the first that
tells of an error. Both always run to their end and answer the same flag, which is up if and only if
some report tells of an error; and the one that keeps going reports every step, in order, from where
the steps before it have led. -/
theorem stops_at_first_failure (steps : List Step) (options : Options) (active : Bool)
    (ids : IdSource) :
    ∃ (first : Simulation) (reports : Bool → List Report) (failed : Bool),
      Simulation.start options active ids = .ok first ∧
      (∀ keepGoing, simulate steps options active keepGoing ids =
        .ok (reports keepGoing, failed)) ∧
      reports false = (reports true).take ((reports true).findIdx (·.error.isSome) + 1) ∧
      (reports false).dropLast.all (·.error.isNone) = true ∧
      (∀ keepGoing, failed = true ↔ ∃ r ∈ reports keepGoing, r.error ≠ none) ∧
      (reports true).map (·.step) = steps.map Step.display ∧
      ∀ i, (reports true)[i]? =
        steps[i]?.map fun t => ((first.after (steps.take i)).report t).2 := by
  obtain ⟨first, hfirst⟩ := Simulation.start_ok options active ids
  let reports keepGoing := first.run keepGoing steps
  have hstopped : reports false = upToFailure (reports true) := Simulation.run_false steps first
  have hflag (keepGoing : Bool) : anyFailed (reports keepGoing) = anyFailed (reports true) := by
    cases keepGoing with
    | true => rfl
    | false => rw [hstopped, anyFailed_upToFailure]
  refine ⟨first, reports, anyFailed (reports true), hfirst, fun keepGoing => ?_, hstopped, ?_,
    fun keepGoing => ?_, Simulation.map_step_run steps first, Simulation.getElem?_run steps first⟩
  · rw [simulate_eq hfirst, ← hflag keepGoing]
  · rw [hstopped, dropLast_upToFailure]
  · rw [← hflag keepGoing, anyFailed_iff]

/-- Nothing can be read outside a transaction; after the next step it can. -/
example :
    let steps := [Step.find, .read "name", .begin, .read "name"]
    ((simulate steps .standard false false .counting).map fun p => p.1.length) = .ok 2 ∧
      ((simulate steps .standard false true .counting).map fun p => p.1.map (·.state)) =
        .ok [some .hollow, some .hollow, some .hollow, some .persistentClean] :=
  ⟨rfl, rfl⟩

end Lifecycle.Scenario
