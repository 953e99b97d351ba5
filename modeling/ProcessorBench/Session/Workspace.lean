import ProcessorBench.Session.Operation

/-!
# Workspaces

A workspace opens the sessions on one pool and keeps them all, numbered in the order in which they
were opened.  Sessions that are forgotten no longer count in what the workspace reports, but whoever
knows their number can go on using them.
-/

namespace ProcessorBench

structure Workspace where
  pool : Pool
  /-- Every session that was opened, each at the position that is its number. -/
  sessions : List Session := []
  /-- How many of the sessions, from the oldest on, are forgotten. -/
  forgotten : Nat := 0
  deriving Inhabited

namespace Workspace

/-- A workspace on the given pool; the pool may not be missing. -/
def make (pool : Option Pool) : Except Error Workspace :=
  match pool with
  | none => .error (.argument .noSharedState)
  | some pool => .ok { pool := pool }

/-- Opens a session and tells its number. -/
def openSession (w : Workspace) : Nat × Workspace :=
  (w.sessions.length, { w with sessions := w.sessions ++ [{}] })

/-- The numbered session at the pool, if it was opened. -/
def scope? (w : Workspace) (n : Nat) : Option Scope :=
  w.sessions[n]?.map fun session => { session, pool := w.pool }

/-- The workspace after the numbered session worked. -/
def resume (w : Workspace) (n : Nat) (s : Scope) : Workspace :=
  { w with pool := s.pool, sessions := w.sessions.set n s.session }

/-- Carries out an operation on the numbered session; there is no answer if it was never opened. -/
def perform (w : Workspace) (n : Nat) (op : Operation) : Option (Except Error Answer) × Workspace :=
  match w.scope? n with
  | none => (none, w)
  | some s =>
    let (r, s) := op.run s
    (some r, w.resume n s)

/-- The sessions that count, oldest first. -/
def created (w : Workspace) : List Session := w.sessions.drop w.forgotten

/-- Forgets all sessions opened so far. -/
def forgetSessions (w : Workspace) : Workspace := { w with forgotten := w.sessions.length }

/-- What the sessions committed to the relationship, by ascending number; flow files with one
number keep the order of their sessions and commits. -/
def routedTo (w : Workspace) (relationship : Text) : List FlowFile :=
  (w.created.flatMap (·.routedTo relationship)).mergeSort fun f g => f.id ≤ g.id

/-- How many flow files the sessions dropped. -/
def removedCount (w : Workspace) : Nat :=
  w.created.foldr (fun s n => s.removedCount + n) 0

/-- Each session routed everything to the relationship. -/
def assertAllRouted (w : Workspace) (relationship : Text) : Except Error Unit :=
  w.created.forM (·.assertAllRouted relationship)

/-- The number of flow files that went to the relationship is the expected one. -/
def assertRoutedCount (w : Workspace) (relationship : Text) (expected : Nat) : Except Error Unit :=
  let found := (w.routedTo relationship).length
  if found = expected then .ok () else .error (.check (.transferCount expected relationship found))

end Workspace

end ProcessorBench
