import Lifecycle.State
import Lifecycle.Transition.Effect
import Lifecycle.Transition.Refusal

/-! A transition as data: what is done to the instance, in order, and the state it ends in. A
refusal comes before anything is done. -/
namespace Lifecycle

structure Move where
  effects : List Effect
  next : State
  deriving DecidableEq

abbrev Verdict := Except Refusal Move

namespace Move

/-- What crossing from one state to another does of itself. Transactional states are exactly those
whose instances are enlisted; a write outside a transaction may be enlisted by the next one, so
its state is left with an eviction. Whoever enters `transient` is released. -/
def crossing (source target : State) : List Effect :=
  (if source.isTransactional ∧ ¬ target.isTransactional then [.evict]
    else if ¬ source.isTransactional ∧ target.isTransactional then [.enlist]
    else if source = .nontransactionalDirty ∧ target ≠ source then [.evict]
    else [])
  ++ if target = .transient then [.disconnect] else []

def stay (s : State) : Verdict :=
  .ok ⟨[], s⟩

def keep (effects : List Effect) (s : State) : Verdict :=
  .ok ⟨effects, s⟩

def enter (effects : List Effect) (source target : State) : Verdict :=
  .ok ⟨effects ++ crossing source target, target⟩

end Move

end Lifecycle
