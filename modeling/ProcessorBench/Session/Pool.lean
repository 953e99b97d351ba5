import ProcessorBench.FlowFile.Provenance
import ProcessorBench.FlowFile.Queue
import ProcessorBench.FlowFile.Supply

/-!
# What sessions share

All sessions of a bench work on one `Pool`: they take flow files from its queue, and on commit
they publish into it what they did.  A counter exists once it was adjusted, also by zero; counters
are machine words and wrap around.
-/

namespace ProcessorBench

abbrev Counters := Table Text Int64

/-- Adds to a counter, which starts at zero when it is first adjusted. -/
def Counters.adjust (c : Counters) (name : Text) (delta : Int64) : Counters :=
  c.insert name ((c.get? name).getD 0 + delta)

structure Pool where
  supply : Supply := {}
  /-- The names of the relationships that flow files may be routed to. -/
  relationships : List Text := []
  queue : Queue := {}
  counters : Counters := ∅
  /-- The published events, oldest first. -/
  provenance : List Provenance.Event := []
  deriving Inhabited

namespace Pool

/-- A pool for the given relationships; the supply may not be missing. -/
def make (relationships : List Relationship) (supply : Option Supply) : Except Error Pool :=
  match supply with
  | none => .error (.argument .noIdGenerator)
  | some supply => .ok { supply, relationships := relationships.map (·.name) }

def declares (p : Pool) (relationship : Text) : Bool := p.relationships.contains relationship

/-- Takes the oldest flow file of the queue, if there is one. -/
def poll (p : Pool) : Option FlowFile × Pool :=
  let (f?, queue) := p.queue.poll
  (f?, { p with queue })

/-- Takes the oldest flow files of the queue, `max` of them or as many as there are. -/
def pollUpTo (p : Pool) (max : Nat) : List FlowFile × Pool :=
  let (fs, queue) := p.queue.pollUpTo max
  (fs, { p with queue })

def takeId (p : Pool) : UInt64 × Pool :=
  let (id, supply) := p.supply.takeId
  (id, { p with supply })

def adjustCounter (p : Pool) (name : Text) (delta : Int64) : Pool :=
  { p with counters := p.counters.adjust name delta }

def record (p : Pool) (events : List Provenance.Event) : Pool :=
  { p with provenance := p.provenance ++ events }

end Pool

end ProcessorBench
