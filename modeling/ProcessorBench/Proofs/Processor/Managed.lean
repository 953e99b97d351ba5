import ProcessorBench.Processor.Basic
import ProcessorBench.Proofs.Session.Pending
import ProcessorBench.Proofs.Session.Workspace

/-!
# A managed trigger is all or nothing

A managed processor runs a program on a session of its own.  The program may do anything with the
session but end the unit of work, and may go on after errors.

* `Program.calls` — the calls of the program to its session, with the answers.
* `Program.Outstanding` — what holds while a program runs: nothing is published, counters moved by
  the immediate adjustments alone, and what was taken or made is held.
* `Processor.runManaged_all_or_nothing` — the trigger ends with one commit, or with one rollback
  that leaves of the program only the immediate adjustments.
-/

set_option autoImplicit false

namespace ProcessorBench

/-- What a session that was opened answers to a call. -/
theorem Stage.answer_eq {υ : Type} {stage : Stage υ} {n : Nat} {s : Scope}
    (hs : stage.workspace.scope? n = some s) (op : Operation) :
    stage.answer n op = (op.run s).1 := by
  unfold answer
  rw [Workspace.perform_eq hs]
  rfl

namespace Program

variable {υ : Type}

/-- A call to the session, and what it answered. -/
abbrev Call := Operation × Except Error Answer

/-- The calls that the program makes to its session, in their order. -/
def calls : Program υ → Context υ → υ → Scope → List Call
  | finish _, _, _, _ => []
  | perform op next, c, user, s =>
    (op, (op.run s).1) :: (next (op.run s).1).calls c user (op.run s).2
  | inspect next, c, user, s => (next s.session).calls c user s
  | configure change next, c, user, s => (next c).calls (change c) user s
  | touch change next, c, user, s => (next user).calls c (change user) s

/-- The flow files that were taken or made by a call. -/
def Call.obtained (e : Call) : List FlowFile :=
  match e with
  | (op, .ok a) => if op.obtains then a.files else []
  | (_, .error _) => []

/-- What the calls added to the counters of the pool at once. -/
def adjustments (calls : List Call) : List (Text × Int64) := calls.flatMap (·.1.adjustments)

/-- What every call keeps holds when the program has ended. -/
theorem run_induction {I : List Call → Scope → Prop}
    (hstep : ∀ l s (op : Operation), op.settles = false → I l s →
      I (l ++ [(op, (op.run s).1)]) (op.run s).2)
    {p : Program υ} (hp : p.Unsettled) (c : Context υ) (user : υ) {l : List Call} {s : Scope}
    (h : I l s) : I (l ++ p.calls c user s) (p.run c user s).scope := by
  induction hp generalizing c user l s with
  | finish outcome =>
    rw [calls, List.append_nil]
    exact h
  | perform op next hop hnext ih =>
    have hrest := ih (op.run s).1 c user (hstep l s op hop h)
    rw [List.append_assoc] at hrest
    exact hrest
  | inspect next hnext ih => exact ih s.session c user h
  | configure change next hnext ih => exact ih c (change c) user h
  | touch change next hnext ih => exact ih user c (change user) h

/-- A program is on its way on a session that started empty on the pool. -/
structure Outstanding (pool : Pool) (l : List Call) (s : Scope) : Prop where
  pending : s.Pending pool
  counters : s.pool.counters = pool.counters.adjustAll (adjustments l)
  held : ∀ f ∈ l.flatMap Call.obtained, (s.session.holdings.get? f.id).isSome

theorem Outstanding.start (pool : Pool) : Outstanding pool [] { pool } where
  pending := .start pool
  counters := rfl
  held _ hf := by cases hf

theorem Outstanding.step {pool : Pool} (hpool : (pool.queue.flowFiles.map (·.id)).Nodup)
    {l : List Call} {s : Scope} {op : Operation} (hop : op.settles = false)
    (h : Outstanding pool l s) : Outstanding pool (l ++ [(op, (op.run s).1)]) (op.run s).2 where
  pending := h.pending.run hpool hop
  counters := by
    rw [Operation.run_counters hop, h.counters]
    unfold adjustments Counters.adjustAll
    rw [List.flatMap_append, List.foldl_append, List.flatMap_singleton]
  held f hf := by
    rw [List.flatMap_append, List.mem_append, List.flatMap_singleton] at hf
    rcases hf with hf | hf
    · exact Operation.run_keeps hop h.pending.keyed (h.held f hf)
    · unfold Call.obtained at hf
      cases ha : (op.run s).1 with
      | error e =>
        rw [ha] at hf
        cases hf
      | ok a =>
        rw [ha] at hf
        dsimp only at hf
        split at hf
        · rename_i hobtains
          exact Operation.run_obtained hobtains ha hf
        · cases hf

theorem run_outstanding {pool : Pool} (hpool : (pool.queue.flowFiles.map (·.id)).Nodup)
    {p : Program υ} (hp : p.Unsettled) (c : Context υ) (user : υ) :
    Outstanding pool (p.calls c user { pool }) (p.run c user { pool }).scope :=
  run_induction (I := Outstanding pool) (fun _ _ _ hop h => h.step hpool hop) hp c user
    (.start pool)

/-- A program that is done on a stage, while nobody else does anything, does to its session what it
does to it alone. -/
theorem run_on {n : Nat} (k : Except Error Unit → Procedure (Stage υ) (Deed υ)) (p : Program υ)
    (stage : Stage υ) {s : Scope} (hs : stage.workspace.scope? n = some s) :
    let r := p.run stage.context stage.world.user s
    (p.on n k).run Deed.effect stage = (k r.outcome).run Deed.effect
      { context := r.context, workspace := stage.workspace.resume n r.scope
        world := { stage.world with user := r.user } } := by
  obtain ⟨context, workspace, world⟩ := stage
  have hn := (Workspace.scope?_eq_some hs).1
  induction p generalizing context workspace world s with
  | finish outcome =>
    show _ = (k outcome).run Deed.effect ⟨context, workspace.resume n s, world⟩
    rw [Workspace.resume_self hs]
    rfl
  | perform op next ih =>
    have hresumed : n < (workspace.resume n (op.run s).2).sessions.length := by
      rw [Workspace.resume, List.length_set]
      exact hn
    have hrest := ih (op.run s).1 context (workspace.resume n (op.run s).2) world
      (Workspace.scope?_resume hn _) hresumed
    simp only [Workspace.resume_resume] at hrest
    show ((next (Stage.answer ⟨context, workspace, world⟩ n op)).on n k).run Deed.effect
      ⟨context, (workspace.perform n op).2, world⟩ = _
    rw [Stage.answer_eq hs, Workspace.perform_eq hs]
    exact hrest
  | inspect next ih =>
    have hsession : Stage.session ⟨context, workspace, world⟩ n = s.session :=
      (Workspace.scope?_eq_some hs).2.1.symm
    show ((next (Stage.session ⟨context, workspace, world⟩ n)).on n k).run Deed.effect _ = _
    rw [hsession]
    exact ih s.session context workspace world hs hn
  | configure change next ih => exact ih context (change context) workspace world hs hn
  | touch change next ih =>
    exact ih world.user context workspace { world with user := change world.user } hs hn

end Program

namespace Processor

variable {υ : Type}

/-- Backing out undoes the session, and fails with the error. -/
theorem run_abandon (identifier : Text) {n : Nat} (e : Error) {stage : Stage υ} {s : Scope}
    (hs : stage.workspace.scope? n = some s) :
    let r := (abandon identifier n e).run Deed.effect stage
    r.1 = .error e ∧ r.2.workspace = stage.workspace.resume n s.rollback := by
  refine ⟨rfl, ?_⟩
  show (stage.workspace.perform n .rollback).2 = _
  rw [Workspace.perform_eq hs]
  rfl

/-- What becomes of a session whose program has ended so, while nobody else does anything. -/
theorem run_conclude (identifier : Text) {n : Nat} (outcome : Except Error Unit) (stage : Stage υ)
    {s : Scope} (hs : stage.workspace.scope? n = some s) :
    let r := (conclude identifier n outcome).run Deed.effect stage
    (outcome = .ok () ∧ s.session.undecided? = none ∧ r.1 = .ok () ∧
      r.2.workspace = stage.workspace.resume n s.publish) ∨
    ∃ e, (outcome = .error e ∨ outcome = .ok () ∧
        ∃ id, s.session.undecided? = some id ∧ e = .flowFile (.undecided id)) ∧
      r.1 = .error e ∧ r.2.workspace = stage.workspace.resume n s.rollback := by
  cases outcome with
  | error e => exact .inr ⟨e, .inl rfl, run_abandon identifier e hs⟩
  | ok _ =>
    intro r
    have hr : r = (settle identifier n (Operation.commit.run s).1).run Deed.effect
        { stage with workspace := stage.workspace.resume n (Operation.commit.run s).2 } := by
      show (settle identifier n (stage.answer n .commit)).run Deed.effect
        { stage with workspace := (stage.workspace.perform n .commit).2 } = _
      rw [Stage.answer_eq hs, Workspace.perform_eq hs]
    cases hundecided : s.session.undecided? with
    | none =>
      have hcommit : Operation.commit.run s = (.ok .done, s.publish) := by
        simp [Operation.run, Operation.run.answer, Scope.commit, hundecided, Except.map]
      rw [hcommit] at hr
      rw [hr]
      exact .inl ⟨rfl, rfl, rfl, rfl⟩
    | some id =>
      have hcommit : Operation.commit.run s = (.error (.flowFile (.undecided id)), s) := by
        simp [Operation.run, Operation.run.answer, Scope.commit, hundecided, Except.map]
      rw [hcommit, Workspace.resume_self hs] at hr
      rw [hr]
      exact .inr ⟨_, .inr ⟨rfl, id, rfl, rfl⟩, run_abandon identifier _ hs⟩

/-- What a managed trigger does, given how its program ended. -/
theorem runManaged_cases (identifier : Text) (body : Program υ) (c : Context υ)
    (ws : Workspace) (w : World υ) :
    let r := runManaged identifier body c ws w
    let run := body.run c w.user { pool := ws.pool }
    (run.outcome = .ok () ∧ run.scope.session.undecided? = none ∧ r.outcome = .ok () ∧
      r.workspace = { ws with
        pool := run.scope.publish.pool, sessions := ws.sessions ++ [run.scope.publish.session] }) ∨
    ∃ e, (run.outcome = .error e ∨ run.outcome = .ok () ∧
        ∃ id, run.scope.session.undecided? = some id ∧ e = .flowFile (.undecided id)) ∧
      r.outcome = .error e ∧
      r.workspace = { ws with
        pool := run.scope.rollback.pool
        sessions := ws.sessions ++ [run.scope.rollback.session] } := by
  intro r run
  have hn : ws.openSession.1 < ws.openSession.2.sessions.length := by
    unfold Workspace.openSession
    simp
  have hopened : ws.openSession.2.scope? ws.openSession.1 = some { pool := ws.pool } := by
    unfold Workspace.openSession Workspace.scope?
    simp
  have hrun := Program.run_on (conclude identifier ws.openSession.1) body
    ⟨c, ws.openSession.2, w⟩ hopened
  have hcases := run_conclude identifier run.outcome
    ⟨run.context, ws.openSession.2.resume ws.openSession.1 run.scope,
      { w with user := run.user }⟩ (Workspace.scope?_resume hn run.scope)
  have hall : (manage identifier body).run Deed.effect ⟨c, ws, w⟩ = _ := hrun
  unfold Workspace.openSession at hall
  dsimp only at hcases
  rw [← hrun, Workspace.resume_resume, Workspace.resume_resume, ws.resume_openSession,
    ws.resume_openSession] at hcases
  exact hcases

/-- **A managed trigger is all or nothing.** -/
theorem runManaged_all_or_nothing (identifier : Text) {body : Program υ} (c : Context υ)
    {ws : Workspace} {w : World υ} (hbody : body.Unsettled)
    (hqueue : (ws.pool.queue.flowFiles.map (·.id)).Nodup) :
    let r := runManaged identifier body c ws w
    let run := body.run c w.user { pool := ws.pool }
    let calls := body.calls c w.user { pool := ws.pool }
    ∃ session, r.workspace.sessions = ws.sessions ++ [session] ∧
      session.holdings = ∅ ∧ session.counters = ∅ ∧ session.events = [] ∧
      ((r.outcome = .ok () ∧ run.outcome = .ok () ∧ session.commits = 1 ∧ session.rollbacks = 0 ∧
        ∀ f ∈ calls.flatMap Program.Call.obtained, ∃ h,
          run.scope.session.holdings.get? f.id = some h ∧
          Scope.Fulfils ⟨session, r.workspace.pool⟩ h) ∨
      ∃ e, r.outcome = .error e ∧
        (run.outcome = .error e ∨ run.outcome = .ok () ∧ ∃ id h, e = .flowFile (.undecided id) ∧
          run.scope.session.holdings.get? id = some h ∧ h.fate = .undecided) ∧
        session.commits = 0 ∧ session.rollbacks = 1 ∧
        r.workspace.pool.queue.flowFiles.Perm ws.pool.queue.flowFiles ∧
        session.routed = ∅ ∧ session.removedCount = 0 ∧
        r.workspace.pool.provenance = ws.pool.provenance ∧
        r.workspace.pool.counters = ws.pool.counters.adjustAll (Program.adjustments calls)) := by
  intro r run calls
  have hrun := Program.run_outstanding hqueue hbody c w.user
  obtain ⟨hended, hdecided, houtcome, hworkspace⟩ | ⟨e, hended, houtcome, hworkspace⟩ :=
    runManaged_cases identifier body c ws w
  · refine ⟨run.scope.publish.session, ?_, rfl, rfl, rfl, .inl ⟨houtcome, hended, ?_, ?_, ?_⟩⟩
    · rw [hworkspace]
    · show run.scope.session.commits + 1 = 1
      rw [hrun.pending.commits]
    · exact hrun.pending.rollbacks
    · intro f hf
      obtain ⟨h, hg⟩ := Option.isSome_iff_exists.1 (hrun.held f hf)
      refine ⟨h, hg, ?_⟩
      rw [hworkspace]
      exact Scope.publish_fulfils hdecided hg
  · refine ⟨run.scope.rollback.session, ?_, rfl, rfl, rfl,
      .inr ⟨e, houtcome, ?_, hrun.pending.commits, ?_, ?_, hrun.pending.routed,
        hrun.pending.removedCount, ?_, ?_⟩⟩
    · rw [hworkspace]
    · refine hended.imp_right ?_
      rintro ⟨hok, id, hundecided, rfl⟩
      obtain ⟨h, hg, hfate⟩ := Session.undecided_of_undecided? hundecided
      exact ⟨hok, id, h, rfl, hg, hfate⟩
    · show run.scope.session.rollbacks + 1 = 1
      rw [hrun.pending.rollbacks]
    · rw [hworkspace]
      exact hrun.pending.rollback
    · rw [hworkspace]
      exact hrun.pending.provenance
    · rw [hworkspace]
      exact hrun.counters

/-- A program that takes the only flow file and fails. -/
theorem runManaged_all_or_nothing_of_failure :
    let f : FlowFile := ⟨0, ∅, default, 0⟩
    let ws : Workspace := { pool := { queue := ⟨[f]⟩ } }
    let body : Program Nat := .perform .poll fun _ => .finish (.error .foreign)
    let r := runManaged "p" body { identifier := "p", processor := {} } ws { user := 0 }
    r.outcome = .error .foreign ∧ r.workspace.pool.queue.flowFiles.Perm [f] := by
  intro f ws body r
  have houtcome : r.outcome = .error .foreign := rfl
  have hbody : body.Unsettled := .perform .poll _ rfl fun _ => .finish _
  have hqueue : (ws.pool.queue.flowFiles.map (·.id)).Nodup := by decide
  obtain ⟨session, -, -, -, -, ⟨hok, -⟩ | ⟨e, -, -, -, -, hperm, -⟩⟩ :=
    runManaged_all_or_nothing "p" (w := { user := 0 })
      { identifier := "p", processor := {} } hbody hqueue
  · rw [houtcome] at hok
    cases hok
  · exact ⟨houtcome, hperm⟩

end Processor

end ProcessorBench
