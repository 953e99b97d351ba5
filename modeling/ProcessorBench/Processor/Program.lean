import ProcessorBench.Processor.Context
import ProcessorBench.Session.Operation

/-!
# Programs

What a processor does with a session when it is triggered, step by step.  A program calls the
session and goes on with what the call answered, whether it succeeded or not, so it may deal with
an error or end with it.  It may also look at its session, its context and the user's state, and
change the latter two.  Every program ends.
-/

namespace ProcessorBench

inductive Program (υ : Type) where
  /-- Ends, normally or with an error. -/
  | finish (outcome : Except Error Unit)
  /-- Calls the session. -/
  | perform (op : Operation) (next : Except Error Answer → Program υ)
  /-- Looks at the session. -/
  | inspect (next : Session → Program υ)
  /-- Looks at the context, and changes it. -/
  | configure (change : Context υ → Context υ) (next : Context υ → Program υ)
  /-- Looks at the user's state, and changes it. -/
  | touch (change : υ → υ) (next : υ → Program υ)

/-- How a program ended, and what it left behind. -/
structure Program.Result (υ : Type) where
  outcome : Except Error Unit
  user : υ
  context : Context υ
  scope : Scope

namespace Program

variable {υ : Type}

/-- Runs the program without a break. -/
def run : Program υ → Context υ → υ → Scope → Result υ
  | finish outcome, c, user, s => ⟨outcome, user, c, s⟩
  | perform op next, c, user, s =>
    let (r, s) := op.run s
    (next r).run c user s
  | inspect next, c, user, s => (next s.session).run c user s
  | configure change next, c, user, s => (next c).run (change c) user s
  | touch change next, c, user, s => (next user).run c (change user) s

/-- The program never ends the unit of work on its own. -/
inductive Unsettled : Program υ → Prop
  | finish (outcome : Except Error Unit) : Unsettled (finish outcome)
  | perform (op : Operation) (next : Except Error Answer → Program υ) (hop : op.settles = false)
      (hnext : ∀ r, Unsettled (next r)) : Unsettled (perform op next)
  | inspect (next : Session → Program υ) (hnext : ∀ s, Unsettled (next s)) :
      Unsettled (inspect next)
  | configure (change : Context υ → Context υ) (next : Context υ → Program υ)
      (hnext : ∀ c, Unsettled (next c)) : Unsettled (configure change next)
  | touch (change : υ → υ) (next : υ → Program υ) (hnext : ∀ user, Unsettled (next user)) :
      Unsettled (touch change next)

end Program

end ProcessorBench
