import ProcessorBench.Engine.Procedure
import ProcessorBench.Processor.Program
import ProcessorBench.Session.Workspace
import ProcessorBench.World

/-!
# What processors work on

All that triggers of a processor work on together stands on a stage: the context, the workspace with
the sessions and the queue, and the world.  What they do to it are deeds.  A deed is done at once;
between two deeds of one trigger, others may do theirs.
-/

namespace ProcessorBench

structure Stage (υ : Type) where
  context : Context υ
  workspace : Workspace
  world : World υ

/-- Something that a trigger does. -/
inductive Deed (υ : Type) where
  | openSession
  /-- Calls the numbered session. -/
  | call (n : Nat) (op : Operation)
  | configure (change : Context υ → Context υ)
  | touch (change : υ → υ)
  | note (logger : Text) (level : Log.Level) (text : Text)
  /-- Only looks. -/
  | look

namespace Deed

variable {υ : Type}

/-- What the deed does to the stage. -/
def effect (d : Deed υ) (s : Stage υ) : Stage υ :=
  match d with
  | openSession => { s with workspace := s.workspace.openSession.2 }
  | call n op => { s with workspace := (s.workspace.perform n op).2 }
  | configure change => { s with context := change s.context }
  | touch change => { s with world := { s.world with user := change s.world.user } }
  | note logger level text => { s with world := s.world.note logger level text }
  | look => s

end Deed

namespace Stage

variable {υ : Type}

/-- What the numbered session answers to the call.  A session that was never opened is foreign to
the workspace. -/
def answer (s : Stage υ) (n : Nat) (op : Operation) : Except Error Answer :=
  ((s.workspace.perform n op).1).getD (.error .foreign)

/-- The numbered session, as it is. -/
def session (s : Stage υ) (n : Nat) : Session := s.workspace.sessions[n]?.getD {}

end Stage

/-- Does the program on the numbered session, and goes on with its outcome. -/
def Program.on {υ : Type} (n : Nat) (k : Except Error Unit → Procedure (Stage υ) (Deed υ)) :
    Program υ → Procedure (Stage υ) (Deed υ)
  | finish outcome => k outcome
  | perform op next => .step (.call n op) fun s => (next (s.answer n op)).on n k
  | inspect next => .step .look fun s => (next (s.session n)).on n k
  | configure change next => .step (.configure change) fun s => (next s.context).on n k
  | touch change next => .step (.touch change) fun s => (next s.world.user).on n k

end ProcessorBench
