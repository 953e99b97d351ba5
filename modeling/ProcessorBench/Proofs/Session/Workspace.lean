import ProcessorBench.Session.Workspace

/-!
# The sessions of a workspace

Reading a session (`scope?`) and putting it back (`resume`) behave like reading and writing a cell:
what was put back is read again (`scope?_resume`), the last one put back counts (`resume_resume`),
and the other sessions stay (`session_resume`).
-/

set_option autoImplicit false

namespace ProcessorBench

namespace Workspace

/-- The numbered session; one that was never opened is empty. -/
def session (w : Workspace) (n : Nat) : Session := w.sessions[n]?.getD {}

/-- The sessions, by number. -/
theorem sessions_eq (w : Workspace) :
    w.sessions = (List.range w.sessions.length).map w.session := by
  refine List.ext_getElem? fun i => ?_
  rw [List.getElem?_map]
  unfold session
  by_cases hi : i < w.sessions.length
  · rw [List.getElem?_range hi, Option.map_some, List.getElem?_eq_getElem hi, Option.getD_some]
  · rw [List.getElem?_eq_none (Nat.le_of_not_lt hi), List.getElem?_eq_none (by simpa using hi)]
    rfl

theorem scope?_eq_some {w : Workspace} {n : Nat} {s : Scope} (h : w.scope? n = some s) :
    n < w.sessions.length ∧ s.session = w.session n ∧ s.pool = w.pool := by
  unfold scope? at h
  obtain ⟨session, hsession, rfl⟩ := Option.map_eq_some_iff.1 h
  refine ⟨(List.getElem?_eq_some_iff.1 hsession).1, ?_, rfl⟩
  unfold Workspace.session
  rw [hsession]
  rfl

/-- A session that was opened can be worked on. -/
theorem scope?_of_lt {w : Workspace} {n : Nat} (hn : n < w.sessions.length) :
    w.scope? n = some ⟨w.session n, w.pool⟩ := by
  unfold scope? Workspace.session
  rw [List.getElem?_eq_getElem hn]
  rfl

/-- What an operation does at a session that was opened. -/
theorem perform_eq {w : Workspace} {n : Nat} {s : Scope} (h : w.scope? n = some s)
    (op : Operation) : w.perform n op = (some (op.run s).1, w.resume n (op.run s).2) := by
  unfold perform
  rw [h]

theorem session_resume {w : Workspace} {n : Nat} (hn : n < w.sessions.length) (s : Scope)
    (m : Nat) : (w.resume n s).session m = if m = n then s.session else w.session m := by
  unfold Workspace.session resume
  rw [List.getElem?_set]
  by_cases h : m = n
  · subst h
    simp [hn]
  · have h' : ¬n = m := fun e => h e.symm
    simp [h, h']

theorem scope?_resume {w : Workspace} {n : Nat} (hn : n < w.sessions.length) (s : Scope) :
    (w.resume n s).scope? n = some s := by
  unfold scope? resume
  rw [List.getElem?_set]
  simp [hn]

theorem resume_resume (w : Workspace) (n : Nat) (s t : Scope) :
    (w.resume n s).resume n t = w.resume n t := by
  unfold resume
  simp

theorem resume_self {w : Workspace} {n : Nat} {s : Scope} (h : w.scope? n = some s) :
    w.resume n s = w := by
  obtain ⟨pool, sessions, forgotten⟩ := w
  unfold scope? at h
  obtain ⟨session, hsession, rfl⟩ := Option.map_eq_some_iff.1 h
  obtain ⟨hn, hget⟩ := List.getElem?_eq_some_iff.1 hsession
  unfold resume
  simp only [Workspace.mk.injEq, true_and, and_true] at hget ⊢
  rw [← hget, List.set_getElem_self]

theorem session_openSession (w : Workspace) (m : Nat) :
    w.openSession.2.session m = w.session m := by
  unfold Workspace.session openSession
  rw [List.getElem?_append]
  by_cases h : m < w.sessions.length
  · simp [h]
  · have hnone : w.sessions[m]? = none := List.getElem?_eq_none (by omega)
    rw [if_neg h, hnone]
    cases m - w.sessions.length <;> rfl

/-- A session that was opened and worked stands behind the others. -/
theorem resume_openSession (w : Workspace) (s : Scope) :
    w.openSession.2.resume w.openSession.1 s =
      { w with pool := s.pool, sessions := w.sessions ++ [s.session] } := by
  unfold openSession resume
  simp

end Workspace

end ProcessorBench
