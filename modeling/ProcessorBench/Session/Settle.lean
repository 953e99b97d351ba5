import ProcessorBench.Session.Basic

/-!
# Deciding, committing and rolling back

A caller decides what becomes of each held flow file, and may decide again until it drops the flow
file.  The commit needs a decision for every held flow file and publishes them all, by ascending
number; the rollback puts back what was taken from the queue, as it was taken, and forgets the
rest.
-/

namespace ProcessorBench

namespace Scope

/-- Lets the flow file leave through a relationship. -/
def route (s : Scope) (f : FlowFile) (relationship : Text) : Except Error Unit × Scope :=
  s.withHeld f fun h =>
    if s.pool.declares relationship then
      (.ok (), { s with session := s.session.assign h (.route relationship) })
    else (.error (.flowFile (.undeclaredRelationship f.id relationship)), s)

/-- Routes the flow files one after the other and stops at the first one that is rejected. -/
def routeAll (s : Scope) (fs : List FlowFile) (relationship : Text) : Except Error Unit × Scope :=
  match fs with
  | [] => (.ok (), s)
  | f :: rest =>
    match s.route f relationship with
    | (.error e, s) => (.error e, s)
    | (.ok (), s) => s.routeAll rest relationship

/-- Lets a flow file that came from the queue go back there. -/
def giveBack (s : Scope) (f : FlowFile) : Except Error Unit × Scope :=
  s.withHeld f fun h =>
    if h.polled.isSome then (.ok (), { s with session := s.session.assign h .giveBack })
    else (.error (.flowFile (.notFromQueue f.id)), s)

/-- Gives the flow file up for good: from now on it is rejected. -/
def drop (s : Scope) (f : FlowFile) : Except Error Unit × Scope :=
  s.withHeld f fun h => (.ok (), { s with session := (s.session.assign h .drop).record .drop f.id })

/-- Adjusts a counter at once, or at the commit. -/
def adjustCounter (s : Scope) (name : Text) (delta : Int64) (immediate : Bool) : Scope :=
  if immediate then { s with pool := s.pool.adjustCounter name delta }
  else { s with session := { s.session with counters := s.session.counters.adjust name delta } }

end Scope

namespace Session

/-- The first flow file, by number, whose fate is undecided. -/
def undecided? (s : Session) : Option UInt64 :=
  (s.holdings.entries.find? fun e => e.2.fate = .undecided).map Prod.fst

/-- The flow files that are to leave through a relationship, with its name, by number. -/
def leaving (s : Session) : List (Text × FlowFile) :=
  s.holdings.values.filterMap fun h =>
    match h.fate with
    | .route relationship => some (relationship, h.current)
    | _ => none

/-- The flow files that are to go back to the queue, by number. -/
def returning (s : Session) : List FlowFile :=
  (s.holdings.values.filter fun h => h.fate = .giveBack).map (·.current)

/-- How many flow files are given up. -/
def dropping (s : Session) : Nat := s.holdings.values.countP fun h => h.fate = .drop

/-- What was taken from the queue, as it was taken, by number. -/
def taken (s : Session) : List FlowFile := s.holdings.values.filterMap (·.polled)

/-- Appends a flow file to what was committed to the relationship. -/
def deliver (routed : Table Text (List FlowFile)) (e : Text × FlowFile) :
    Table Text (List FlowFile) :=
  routed.insert e.1 ((routed.get? e.1).getD [] ++ [e.2])

/-- The events that a commit publishes: those that waited, then one for each routing. -/
def publication (s : Session) : List Provenance.Event :=
  s.events ++ s.leaving.map fun (relationship, f) =>
    { kind := .route, flowFile := f.id, relationship }

end Session

namespace Scope

/-- Publishes all decisions. -/
def publish (s : Scope) : Scope where
  session :=
    { s.session.settled with
      routed := s.session.leaving.foldl Session.deliver s.session.routed
      removedCount := s.session.removedCount + s.session.dropping
      commits := s.session.commits + 1 }
  pool :=
    { s.pool with
      counters := s.session.counters.entries.foldl (fun c e => c.adjust e.1 e.2) s.pool.counters
      provenance := s.pool.provenance ++ s.session.publication
      queue := s.pool.queue.offerAll s.session.returning }

/-- Publishes the work of the session, if every held flow file has a fate. -/
def commit (s : Scope) : Except Error Unit × Scope :=
  match s.session.undecided? with
  | some id => (.error (.flowFile (.undecided id)), s)
  | none => (.ok (), s.publish)

/-- Undoes the work of the session. -/
def rollback (s : Scope) : Scope where
  session := { s.session.settled with rollbacks := s.session.rollbacks + 1 }
  pool := { s.pool with queue := s.pool.queue.offerAll s.session.taken }

/-- Forgets what was committed to relationships and how much was dropped. -/
def clearRouted (s : Scope) : Scope :=
  { s with session := { s.session with routed := ∅, removedCount := 0 } }

end Scope

end ProcessorBench
