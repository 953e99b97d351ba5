import ProcessorBench.Processor.Program

/-!
# Writing programs

A `Script` is a part of a program that yields a value.  Scripts form a monad, so a program can be
written as a row of calls, and the laws of monads let a row be regrouped.
-/

namespace ProcessorBench

/-- A part of a program: given what is to follow, with the value that this part yields. -/
def Script (υ α : Type) : Type := (α → Program υ) → Program υ

namespace Script

variable {υ α β : Type}

instance : Monad (Script υ) where
  pure a := fun next => next a
  bind s f := fun next => s fun a => f a next

instance : LawfulMonad (Script υ) :=
  LawfulMonad.mk' (Script υ) (fun _ => rfl) (fun _ _ => rfl) (fun _ _ _ => rfl)

/-- Calls the session. -/
def perform (op : Operation) : Script υ (Except Error Answer) := Program.perform op

/-- Looks at the session. -/
def session : Script υ Session := Program.inspect

/-- Looks at the context, and changes it. -/
def configure (change : Context υ → Context υ) : Script υ (Context υ) := Program.configure change

/-- Looks at the context. -/
def context : Script υ (Context υ) := configure id

/-- Looks at the user's state, and changes it. -/
def touch (change : υ → υ) : Script υ υ := Program.touch change

/-- The program that ends with the outcome that the script yields. -/
def toProgram (s : Script υ (Except Error Unit)) : Program υ := s Program.finish

end Script

end ProcessorBench
