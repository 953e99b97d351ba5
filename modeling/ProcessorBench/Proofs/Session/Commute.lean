import ProcessorBench.Proofs.Session.Counters

/-!
# Commits of different sessions commute

A commit reads its own session and appends to what all sessions share.  If two sessions can both be
committed, the order of their commits shows in the order of the queue and of the events and nowhere
else (`Workspace.commits_commute`): what a session decided is its own, so neither commit stands in
the way of the other one, and counters do not tell in which order they were adjusted.
-/

set_option autoImplicit false

namespace ProcessorBench

namespace Workspace

variable {w : Workspace} {n m : Nat}

/-- A commit leaves the other sessions as they are, so that they can still be committed. -/
theorem Committable.publish (hn : w.Committable n) (hm : w.Committable m) (hne : m ≠ n) :
    (w.publish n).Committable m where
  isOpen := by
    show m < (w.sessions.set n _).length
    rw [List.length_set]
    exact hm.isOpen
  decided := by
    rw [session_publish hn.isOpen, if_neg hne]
    exact hm.decided

/-- Two commits leave their sessions behind, and these do not depend on the order. -/
theorem sessions_publish_publish (hn : n < w.sessions.length) (hne : m ≠ n) :
    ((w.publish n).publish m).sessions =
      (w.sessions.set n (Scope.publish ⟨w.session n, w.pool⟩).session).set m
        (Scope.publish ⟨w.session m, w.pool⟩).session := by
  show (w.sessions.set n _).set m (Scope.publish ⟨(w.publish n).session m, _⟩).session = _
  rw [session_publish hn, if_neg hne]
  rfl

/-- What the pool has after two commits. -/
theorem pool_publish_publish (hn : n < w.sessions.length) (hne : m ≠ n) :
    ((w.publish n).publish m).pool =
      (Scope.publish ⟨w.session m, (Scope.publish ⟨w.session n, w.pool⟩).pool⟩).pool := by
  show (Scope.publish ⟨(w.publish n).session m, _⟩).pool = _
  rw [session_publish hn, if_neg hne]
  rfl

/-- Two workspaces differ in the order of the last two commits and in no more than has to follow
from that: `before` is the workspace before them. -/
structure Reordered (before : Workspace) (n m : Nat) (u v : Workspace) : Prop where
  sessions : u.sessions = v.sessions
  routedTo : ∀ relationship, u.routedTo relationship = v.routedTo relationship
  removedCount : u.removedCount = v.removedCount
  counters : u.pool.counters = v.pool.counters
  queue : u.pool.queue.flowFiles.Perm v.pool.queue.flowFiles
  events : u.pool.provenance.Perm v.pool.provenance
  /-- The events of each session stand together, and in their order. -/
  publications :
    u.pool.provenance = before.pool.provenance ++
      ((before.session n).publication ++ (before.session m).publication) ∧
    v.pool.provenance = before.pool.provenance ++
      ((before.session m).publication ++ (before.session n).publication)

/-- The events of two commits stand behind those that were there. -/
theorem provenance_publish_publish (hn : n < w.sessions.length) (hne : m ≠ n) :
    ((w.publish n).publish m).pool.provenance = w.pool.provenance ++
      ((w.session n).publication ++ (w.session m).publication) := by
  rw [pool_publish_publish hn hne]
  show (w.pool.provenance ++ _) ++ _ = _
  rw [List.append_assoc]

theorem reordered_publish (hn : n < w.sessions.length) (hm : m < w.sessions.length)
    (hne : n ≠ m) : w.Reordered n m ((w.publish n).publish m) ((w.publish m).publish n) := by
  have hsessions : ((w.publish n).publish m).sessions = ((w.publish m).publish n).sessions := by
    rw [sessions_publish_publish hn hne.symm, sessions_publish_publish hm hne]
    exact List.set_comm _ _ hne
  have hcreated : ((w.publish n).publish m).created = ((w.publish m).publish n).created :=
    congrArg (List.drop w.forgotten) hsessions
  have hfirst := provenance_publish_publish hn hne.symm
  have hsecond := provenance_publish_publish hm hne
  constructor
  · exact hsessions
  · intro relationship
    unfold routedTo
    rw [hcreated]
  · unfold removedCount
    rw [hcreated]
  · rw [pool_publish_publish hn hne.symm, pool_publish_publish hm hne]
    -- each session adds its sums, and adjustments may come in any order
    show (w.pool.counters.adjustAll _).adjustAll _ = (w.pool.counters.adjustAll _).adjustAll _
    rw [← Counters.adjustAll_append, ← Counters.adjustAll_append]
    exact Counters.adjustAll_perm _ List.perm_append_comm
  · rw [pool_publish_publish hn hne.symm, pool_publish_publish hm hne]
    show ((w.pool.queue.flowFiles ++ _) ++ _).Perm ((w.pool.queue.flowFiles ++ _) ++ _)
    rw [List.append_assoc, List.append_assoc]
    exact List.perm_append_comm.append_left _
  · rw [hfirst, hsecond]
    exact List.perm_append_comm.append_left _
  · exact ⟨hfirst, hsecond⟩

/-- **Commits of different sessions commute.**  If each of two sessions can be committed, then both
can, in either order, and the sessions, the counters, the flow files in the queue and the events of
each session come to the same. -/
theorem commits_commute (hne : n ≠ m) (hn : (w.perform n .commit).1 = some (.ok .done))
    (hm : (w.perform m .commit).1 = some (.ok .done)) :
    let first := (w.perform n .commit).2.perform m .commit
    let second := (w.perform m .commit).2.perform n .commit
    first.1 = some (.ok .done) ∧ second.1 = some (.ok .done) ∧
      w.Reordered n m first.2 second.2 := by
  replace hn := committable_of_perform hn
  replace hm := committable_of_perform hm
  intro first second
  have hfirst : first = (some (.ok .done), (w.publish n).publish m) := by
    show (w.perform n .commit).2.perform m .commit = _
    rw [hn.perform, (hn.publish hm hne.symm).perform]
  have hsecond : second = (some (.ok .done), (w.publish m).publish n) := by
    show (w.perform m .commit).2.perform n .commit = _
    rw [hm.perform, (hm.publish hn hne).perform]
  rw [hfirst, hsecond]
  exact ⟨rfl, rfl, reordered_publish hn.isOpen hm.isOpen hne⟩

/-- Two sessions that routed, dropped and counted: both commits go through in either order. -/
theorem commits_commute_of_two_sessions :
    let events : List Event :=
      [.openSession, .openSession, .enqueue [104, 105] ∅, .enqueue [111, 107] ∅, .call 0 .poll,
        .call 1 .poll, .call 0 .create, .call 0 (.route ⟨0, ∅, default, 0⟩ "out"),
        .call 0 (.route ⟨2, ∅, default, 0⟩ "out"), .call 1 (.drop ⟨1, ∅, default, 0⟩),
        .call 0 (.adjustCounter "seen" 2 false), .call 1 (.adjustCounter "seen" (-3) false)]
    let w : Workspace := events.foldl handle { pool := { relationships := ["out"] } }
    let first := (w.perform 0 .commit).2.perform 1 .commit
    let second := (w.perform 1 .commit).2.perform 0 .commit
    first.1 = some (.ok .done) ∧ second.1 = some (.ok .done) ∧ w.Reordered 0 1 first.2 second.2 ∧
      first.2.pool.provenance ≠ second.2.pool.provenance := by
  intro events w first second
  have hn : (w.perform 0 .commit).1 = some (.ok .done) := by rfl
  have hm : (w.perform 1 .commit).1 = some (.ok .done) := by rfl
  obtain ⟨hfirst, hsecond, hsame⟩ := commits_commute (by decide) hn hm
  exact ⟨hfirst, hsecond, hsame, by decide +kernel⟩

end Workspace

end ProcessorBench
