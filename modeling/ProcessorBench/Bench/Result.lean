import ProcessorBench.Bench.Basic

/-!
# Results

What a test can look at after runs, and how it starts afresh without setting up another bench.
-/

namespace ProcessorBench

namespace Bench

variable {υ : Type}

/-- The flow files that went to the relationship, by ascending number. -/
def routedTo (b : Bench υ) (relationship : Text) : List FlowFile :=
  b.workspace.routedTo relationship

/-- How many flow files were dropped. -/
def removedCount (b : Bench υ) : Nat := b.workspace.removedCount

/-- The value of a counter, if it was ever adjusted. -/
def counter? (b : Bench υ) (name : Text) : Option Int64 := b.pool.counters.get? name

/-- The provenance events so far, oldest first. -/
def provenance (b : Bench υ) : List Provenance.Event := b.pool.provenance

def queueSize (b : Bench υ) : Queue.Size := b.pool.queue.size

def isQueueEmpty (b : Bench υ) : Bool := b.pool.queue.isEmpty

def clearProvenance (b : Bench υ) : Bench υ := b.withPool { b.pool with provenance := [] }

/-- Forgets what was routed and dropped so far. -/
def clearRouted (b : Bench υ) : Bench υ := { b with workspace := b.workspace.forgetSessions }

end Bench

end ProcessorBench
