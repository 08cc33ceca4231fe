import Lifecycle.Failure

/-! What a call leaves behind. A call that fails may have done part of its work, so the state
after it is kept beside the answer in both cases. -/
namespace Lifecycle

structure Outcome (σ α : Type) where
  after : σ
  answer : Except Failure α

namespace Outcome

variable {σ τ α β : Type}

def done (s : σ) (a : α) : Outcome σ α :=
  ⟨s, .ok a⟩

def failed (s : σ) (f : Failure) : Outcome σ α :=
  ⟨s, .error f⟩

/-- Goes on from where a successful call ended; a failure stands. -/
def andThen (o : Outcome σ α) (next : σ → α → Outcome σ β) : Outcome σ β :=
  match o.answer with
  | .ok a => next o.after a
  | .error f => failed o.after f

def map (f : α → β) (o : Outcome σ α) : Outcome σ β :=
  ⟨o.after, o.answer.map f⟩

def within (f : σ → τ) (o : Outcome σ α) : Outcome τ α :=
  ⟨f o.after, o.answer⟩

/-- A change that is made as a whole or not at all. -/
def change (s : σ) (r : Except Failure σ) : Outcome σ Unit :=
  match r with
  | .ok s' => done s' ()
  | .error f => failed s f

theorem andThen_done (s : σ) (a : α) (next : σ → α → Outcome σ β) :
    (done s a).andThen next = next s a := rfl

theorem andThen_failed (s : σ) (f : Failure) (next : σ → α → Outcome σ β) :
    (failed s f : Outcome σ α).andThen next = failed s f := rfl

end Outcome

end Lifecycle
