import ProcessorBench.Bench.Input
import ProcessorBench.Bench.Result
import ProcessorBench.Proofs.Bench.Run

/-!
# Whatever is done with a bench

A bench is filled, run and cleared in any order, and between the runs a caller can open sessions of
its own and work on any session that was opened.  What this does to the workspace of the bench is a
row of acts, so what holds of all histories of a workspace holds of every bench, whatever its
processor does and in whatever turns its triggers work.

* `Bench.Use` — what can be done with a bench; `Bench.acts` tells what that does to the workspace.
* `Bench.workspace_history` — the workspace of a bench is the one of its history.
-/

set_option autoImplicit false

namespace ProcessorBench

open Workspace (Act)

variable {υ : Type}

namespace Bench

/-- Something that is done with a bench. -/
inductive Use (υ : Type) where
  | enqueue (f : FlowFile)
  | enqueueAll (fs : List FlowFile)
  | enqueueBytes (bytes : List UInt8) (attributes : Attributes)
  | enqueueText (text : Text) (attributes : Attributes)
  | enqueueStream (stream : Stream) (attributes : Attributes)
  | enqueueFile (file : File) (attributes : Attributes)
  | run (options : RunOptions) (turns : Crew.Turns)
  | shutdown
  /-- A caller asks for a session of its own. -/
  | openSession
  /-- Whoever knows a session calls it. -/
  | call (n : Nat) (op : Operation)
  | clearRouted
  | clearProvenance
  | setThreads (n : Int)
  /-- The processor is configured, or something is done with the services. -/
  | prepare (context : Context υ) (world : World υ)

def use (b : Bench υ) : Use υ → Bench υ
  | .enqueue f => b.enqueue f
  | .enqueueAll fs => b.enqueueAll fs
  | .enqueueBytes bytes attributes => (b.enqueueBytes bytes attributes).2
  | .enqueueText text attributes => (b.enqueueText text attributes).2
  | .enqueueStream stream attributes => (b.enqueueStream stream attributes).2
  | .enqueueFile file attributes => (b.enqueueFile file attributes).2
  | .run options turns => (b.run options turns).2
  | .shutdown => b.shutdown.2
  | .openSession => { b with workspace := b.workspace.openSession.2 }
  | .call n op => { b with workspace := (b.workspace.perform n op).2 }
  | .clearRouted => b.clearRouted
  | .clearProvenance => b.clearProvenance
  | .setThreads n => (b.setThreads n).2
  | .prepare context world => { b with context, world }

/-- What the use does to the workspace. -/
def acts (b : Bench υ) : Use υ → List Act
  | .enqueue f => [.queue [f]]
  | .enqueueAll fs => [.queue fs]
  | .enqueueBytes bytes attributes => [.event (.enqueue bytes attributes)]
  | .enqueueText text attributes => [.event (.enqueue text attributes)]
  | .enqueueStream (.readable bytes) attributes => [.event (.enqueue bytes attributes)]
  | .enqueueFile (.present name bytes) attributes =>
    [.event (.enqueue bytes (attributes.insertIfNew Attributes.filename name))]
  | .enqueueStream .broken _ | .enqueueFile (.missing _) _ => []
  | .run options turns => (b.runEvents options turns).map .event
  | .openSession => [.event .openSession]
  | .call n op => [.event (.call n op)]
  | .clearRouted => [.forget]
  | .clearProvenance => [.clearProvenance]
  | .shutdown | .setThreads _ | .prepare _ _ => []

/-- What all uses in a row do to the workspace. -/
def allActs : Bench υ → List (Use υ) → List Act
  | _, [] => []
  | b, u :: rest => b.acts u ++ (b.use u).allActs rest

/-- The history of a bench that is used so. -/
def history (b : Bench υ) (uses : List (Use υ)) : History :=
  .after b.workspace (b.allActs uses)

variable {b : Bench υ}

/-- **Each use does to the workspace what its acts tell.** -/
theorem use_acts (b : Bench υ) (u : Use υ) :
    (b.use u).workspace = (b.acts u).foldl Workspace.act b.workspace := by
  cases u with
  | enqueueBytes bytes attributes | enqueueText bytes attributes =>
    exact b.enqueueBytes_workspace bytes attributes
  | enqueueStream stream attributes =>
    cases stream with
    | broken => rfl
    | readable bytes => exact b.enqueueBytes_workspace bytes attributes
  | enqueueFile file attributes =>
    cases file with
    | missing path => rfl
    | present name bytes => exact b.enqueueBytes_workspace bytes _
  | run options turns =>
    refine (run_events b options turns).2.trans ?_
    show _ = ((b.runEvents options turns).map Act.event).foldl _ _
    rw [List.foldl_map]
    rfl
  | shutdown => exact (fire_aside b .shutdown).2
  | setThreads n =>
    show (b.setThreads n).2.workspace = _
    unfold setThreads
    cases b.engine.setThreads n <;> rfl
  | enqueue | enqueueAll | openSession | call | clearRouted | clearProvenance | prepare => rfl

/-- **The workspace of a bench is the one of its history.** -/
theorem workspace_history (b : Bench υ) (uses : List (Use υ)) :
    (b.history uses).workspace = (uses.foldl use b).workspace := by
  unfold history
  rw [History.workspace_after]
  induction uses generalizing b with
  | nil => rfl
  | cons u rest ih =>
    rw [allActs, List.foldl_append, ← use_acts b u, List.foldl_cons]
    exact ih (b.use u)

/-- The history of a bench that was new is faithful. -/
theorem New.faithful (hnew : b.New) (uses : List (Use υ)) : (b.history uses).Faithful :=
  .after hnew.sessions hnew.remembered _

end Bench

end ProcessorBench
