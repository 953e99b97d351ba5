import ProcessorBench.Lifecycle.Target
import ProcessorBench.Processor.Stage

/-!
# Processors

A processor is what the bench tries out.  Most are managed: when one is triggered it gets a
session, which is committed if the processor's program ends well and rolled back if anything goes
wrong.  A free processor gets the workspace and opens its sessions itself.
-/

namespace ProcessorBench

/-- The hooks of processors can ask for the context. -/
@[reducible] def Context.signature (υ : Type) : Signature where
  Kind := Unit
  Value _ := Context υ
  typeName _ := Text.ownType "ProcessContext"

/-- How a trigger ended, and what it left behind. -/
structure Trigger.Result (υ : Type) extends Stage υ where
  outcome : Except Error Unit

/-- What a processor does when it is triggered. -/
inductive Trigger (υ : Type) where
  | managed (body : Program υ)
  | free (body : Procedure (Stage υ) (Deed υ))

structure Processor (υ : Type) where
  /-- The processor's own type, with its hooks. -/
  component : Component (Context.signature υ) υ
  declaration : Declaration := {}
  /-- The processor must not be triggered by several threads at once. -/
  serial : Bool := false
  /-- What the processor does when it is started, under an identifier and beside services. -/
  start : Text → Registry υ → υ → Except Error Unit × υ := fun _ _ user => (.ok (), user)
  trigger : Trigger υ

namespace Processor

variable {υ : Type}

/-- Rolls the numbered session back because of an error, which is noted under the identifier. -/
def abandon (identifier : Text) (n : Nat) (e : Error) : Procedure (Stage υ) (Deed υ) :=
  .step (.note identifier .error (Text.join [identifier, " failed to process session due to ",
    e.message, ", rolling back session"])) fun _ =>
  .step (.call n .rollback) fun _ => .done (.error e)

/-- What follows when the session was to be committed, and answered this. -/
def settle (identifier : Text) (n : Nat) : Except Error Answer → Procedure (Stage υ) (Deed υ)
  | .ok _ => .done (.ok ())
  | .error e => abandon identifier n e

/-- What becomes of the session when the program has ended: a commit if it ended well, which may
still fail, and otherwise a rollback. -/
def conclude (identifier : Text) (n : Nat) : Except Error Unit → Procedure (Stage υ) (Deed υ)
  | .error e => abandon identifier n e
  | .ok () => .step (.call n .commit) fun s => settle identifier n (s.answer n .commit)

/-- Opens a session, does the program on it, and commits or rolls back. -/
def manage (identifier : Text) (body : Program υ) : Procedure (Stage υ) (Deed υ) :=
  .step .openSession fun s =>
    let n := s.workspace.openSession.1
    body.on n (conclude identifier n)

/-- What is to be done when the processor is triggered. -/
def procedure (p : Processor υ) (identifier : Text) : Procedure (Stage υ) (Deed υ) :=
  match p.trigger with
  | .managed body => manage identifier body
  | .free body => body

/-- Triggers a managed processor, while nobody else does anything. -/
def runManaged (identifier : Text) (body : Program υ) (c : Context υ) (ws : Workspace)
    (w : World υ) : Trigger.Result υ :=
  let (outcome, s) := (manage identifier body).run Deed.effect ⟨c, ws, w⟩
  { s with outcome }

end Processor

end ProcessorBench
