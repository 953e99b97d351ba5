import ProcessorBench.Session.Pool

/-!
# Sessions

A session is a unit of work on flow files.  It holds the flow files that it took from the queue or
made itself, each in its latest version and with the fate that was last decided for it.  Nothing
of that is visible outside before the commit, and a rollback forgets it all.  Callers name a held
flow file by any version of it: only the number of the version counts.

A `Scope` is a session together with the pool that it works on; operations on sessions take a
scope and leave a scope, also when they fail.
-/

namespace ProcessorBench

/-- What becomes of a held flow file at the commit. -/
inductive Fate where
  | undecided
  | route (relationship : Text)
  | giveBack
  | drop
  deriving DecidableEq, Repr, Inhabited

/-- A flow file that a session works on. -/
structure Holding where
  /-- The latest version. -/
  current : FlowFile
  /-- The version in which it was taken from the queue, if it was. -/
  polled : Option FlowFile := none
  fate : Fate := .undecided
  deriving DecidableEq, Inhabited

structure Session where
  /-- The flow files held, by number. -/
  holdings : Table UInt64 Holding := ∅
  /-- Adjustments that wait for the commit. -/
  counters : Counters := ∅
  /-- Events that wait for the commit. -/
  events : List Provenance.Event := []
  /-- What was committed to each relationship, oldest first. -/
  routed : Table Text (List FlowFile) := ∅
  /-- How many flow files were dropped by commits. -/
  removedCount : Nat := 0
  commits : Nat := 0
  rollbacks : Nat := 0
  deriving DecidableEq, Inhabited

namespace Session

/-- A session on the given pool; the pool may not be missing. -/
def make (pool : Option Pool) : Except Error Session :=
  match pool with
  | none => .error (.argument .noSharedState)
  | some _ => .ok {}

/-- The holding that a version names, unless the flow file was dropped. -/
def held (s : Session) (f : FlowFile) : Except Error Holding :=
  match s.holdings.get? f.id with
  | none => .error (.flowFile (.notHeld f.id))
  | some h => if h.fate = .drop then .error (.flowFile (.alreadyRemoved f.id)) else .ok h

def record (s : Session) (kind : Provenance.Kind) (id : UInt64) (details : Text := []) : Session :=
  { s with events := s.events ++ [{ kind, flowFile := id, details }] }

/-- Takes up a flow file that the session made.  A number that is held already keeps its holding. -/
def hold (s : Session) (f : FlowFile) : Session :=
  { s with holdings := s.holdings.insertIfNew f.id { current := f } }

/-- Takes up a flow file from the queue.  Of several with one number the first one counts, both
as the latest version and as the one to give back. -/
def holdPolled (s : Session) (f : FlowFile) : Session :=
  match s.holdings.get? f.id with
  | none => { s with holdings := s.holdings.insert f.id { current := f, polled := some f } }
  | some h =>
    { s with holdings := s.holdings.insert f.id { h with polled := some (h.polled.getD f) } }

/-- Makes `f` the latest version of the flow file that `h` holds. -/
def revise (s : Session) (h : Holding) (f : FlowFile) : Session :=
  { s with holdings := s.holdings.insert f.id { h with current := f } }

/-- Decides what becomes of the flow file that `h` holds. -/
def assign (s : Session) (h : Holding) (fate : Fate) : Session :=
  { s with holdings := s.holdings.insert h.current.id { h with fate } }

/-- The session without its pending work. -/
def settled (s : Session) : Session := { s with holdings := ∅, counters := ∅, events := [] }

/-- What was committed to the relationship, oldest first. -/
def routedTo (s : Session) (relationship : Text) : List FlowFile :=
  (s.routed.get? relationship).getD []

/-- Everything that was committed to a relationship went to this one. -/
def assertAllRouted (s : Session) (relationship : Text) : Except Error Unit :=
  match s.routed.entries.find? fun e => e.1 ≠ relationship && !e.2.isEmpty with
  | none => .ok ()
  | some (other, fs) => .error (.check (.routedElsewhere relationship fs.length other))

end Session

/-- A session at the pool that it shares with others. -/
structure Scope where
  session : Session := {}
  pool : Pool
  deriving Inhabited

namespace Scope

/-- Goes on with the holding that a version names, or fails and leaves everything as it is. -/
def withHeld {α : Type} (s : Scope) (f : FlowFile) (k : Holding → Except Error α × Scope) :
    Except Error α × Scope :=
  match s.session.held f with
  | .error e => (.error e, s)
  | .ok h => k h

end Scope

end ProcessorBench
