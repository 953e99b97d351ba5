import ProcessorBench.Error.Basic

/-!
# Procedures

A procedure is something that is done to a state in steps.  Others may work on the same state, and
may do so between any two steps, so a procedure says what to do next once it knows the state in
which its last step was taken.  Every procedure ends.
-/

namespace ProcessorBench

/-- What is to be done to a state: deeds, one after the other, and then a result. -/
inductive Procedure (σ δ : Type) where
  /-- There is nothing more to do. -/
  | done (result : Except Error Unit)
  /-- Does the deed, and goes on knowing the state in which it was done. -/
  | step (deed : δ) (next : σ → Procedure σ δ)

namespace Procedure

variable {σ τ δ : Type}

/-- Carries the procedure out without a break, where deeds have the given effects. -/
def run (effect : δ → σ → σ) : Procedure σ δ → σ → Except Error Unit × σ
  | done result, s => (result, s)
  | step deed next, s => (next s).run effect (effect deed s)

/-- The procedure, done to a part of a state. -/
def within (part : τ → σ) : Procedure σ δ → Procedure τ δ
  | done result => done result
  | step deed next => step deed fun t => (next (part t)).within part

end Procedure

end ProcessorBench
