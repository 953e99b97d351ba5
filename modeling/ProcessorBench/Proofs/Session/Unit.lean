import ProcessorBench.Proofs.Session.Calls
import ProcessorBench.Proofs.Session.Register
import Mathlib.Data.List.Perm.Basic

/-!
# Units of work

What a session holds stems from the calls since its last commit or rollback.  A property of a
session and of these calls is an invariant of units of work (`Session.Invariant`) if calls that do
not end the unit of work keep it and if it holds where nothing is pending.  It then holds whatever
the session does: alone, at pools in which anything may happen between two calls
(`Session.Invariant.follow`), or as one of the sessions of a workspace (`Session.Invariant.foldl`).

* `Operation.run_induction` — what holds after a call that neither takes nor makes flow files.
* `Operation.course` — a call takes flow files, makes one, or does neither.
* `Session.Reflects` — a session holds what its calls took and made, each number once.
-/

set_option autoImplicit false

namespace ProcessorBench

open Program (Call recent)

/-! ## Invariants -/

/-- What holds of every session and the calls of its unit of work. -/
structure Session.Invariant (P : Session → List Call → Prop) : Prop where
  /-- Nothing is pending, and no call belongs to the unit of work. -/
  idle : ∀ s : Session, s.holdings = ∅ → s.counters = ∅ → s.events = [] → P s []
  /-- A commit that fails does nothing. -/
  failed : ∀ s calls e, P s calls → P s (calls ++ [(.commit, .error e)])
  run : ∀ (s : Scope) calls (op : Operation), op.settles = false → P s.session calls →
    P (op.run s).2.session (calls ++ [(op, (op.run s).1)])

/-- A session with the calls to it so far, each at a pool of its own. -/
def Session.follow (steps : List (Pool × Operation)) : Session × List Call :=
  steps.foldl (fun c e => ((e.2.run ⟨c.1, e.1⟩).2.session, c.2 ++ [(e.2, (e.2.run ⟨c.1, e.1⟩).1)]))
    ({}, [])

namespace Session

variable {P : Session → List Call → Prop}

/-- One more call keeps an invariant, also if it ends the unit of work or fails to. -/
theorem Invariant.step (hP : Invariant P) {s : Scope} {calls : List Call}
    (h : P s.session (recent calls)) (op : Operation) :
    P (op.run s).2.session (recent (calls ++ [(op, (op.run s).1)])) := by
  cases hop : op.settles with
  | false =>
    rw [Program.recent_append_of_not_ends (Call.ends_of_unsettled hop _)]
    exact hP.run s _ op hop h
  | true =>
    obtain rfl | rfl := Operation.commit_or_rollback hop
    · obtain ⟨-, hrun⟩ | ⟨e, hrun⟩ := Operation.run_commit s
      · rw [hrun, Program.recent_append_of_ends rfl]
        exact hP.idle _ rfl rfl rfl
      · rw [hrun, Program.recent_append_of_not_ends rfl]
        exact hP.failed _ _ e h
    · rw [Program.recent_append_of_ends rfl]
      exact hP.idle _ rfl rfl rfl

/-- An invariant holds after any calls, whatever happens at the pools between them. -/
theorem Invariant.follow (hP : Invariant P) (steps : List (Pool × Operation)) :
    P (follow steps).1 (recent (follow steps).2) := by
  unfold Session.follow
  induction steps using List.reverseRecOn with
  | nil => exact hP.idle _ rfl rfl rfl
  | append_singleton steps e ih =>
    rw [List.foldl_append, List.foldl_cons, List.foldl_nil]
    exact hP.step (s := ⟨_, e.1⟩) ih e.2

/-- A call at a workspace keeps an invariant of each session, the one that works or another. -/
theorem Invariant.call (hP : Invariant P) {w : Workspace} {n : Nat} {s : Scope}
    (hs : w.scope? n = some s) (op : Operation) {m : Nat} {l : List (Nat × Call)}
    (h : P (w.session m) (recent (Workspace.callsTo m l))) :
    P ((w.resume n (op.run s).2).session m)
      (recent (Workspace.callsTo m (l ++ [(n, op, (op.run s).1)]))) := by
  obtain ⟨hn, hsession, -⟩ := Workspace.scope?_eq_some hs
  rw [Workspace.session_resume hn, Workspace.callsTo_append, Workspace.callsTo_singleton]
  by_cases hm : m = n
  · subst hm
    rw [← hsession] at h
    rw [if_pos rfl, if_pos rfl]
    exact hP.step h op
  · have hm' : ¬n = m := fun heq => hm heq.symm
    rw [if_neg hm, if_neg hm', List.append_nil]
    exact h

/-- An invariant of a session does not depend on the other sessions of a workspace. -/
theorem Invariant.foldl (hP : Invariant P) {w : Workspace} {n : Nat} (h : P (w.session n) [])
    (events : List Workspace.Event) :
    P ((events.foldl Workspace.handle w).session n)
      (recent (Workspace.callsTo n (w.calls events))) := by
  refine Workspace.run_induction (I := fun w l => P (w.session n) (recent (Workspace.callsTo n l)))
    ?_ ?_ (fun _ _ _ _ op hs hv => hP.call hs op hv) h events
  · intro v l hv
    rw [Workspace.session_openSession]
    exact hv
  · intro v l bytes attributes hv
    obtain ⟨f, supply, henqueue, -⟩ := v.enqueueBytes_eq bytes attributes
    rw [henqueue]
    exact hv

end Session

/-! ## Calls that neither take nor make flow files -/

/-- Work that leaves the queue as it is does so with each of its changes. -/
theorem Scope.Works.induction_of_queue {Q : Scope → Prop} {s s' : Scope} (hw : s.Works s')
    (hqueue : s'.pool.queue = s.pool.queue)
    (hstep : ∀ t t' : Scope, t.Tends t' → t'.pool.queue = t.pool.queue → Q t → Q t') (h : Q s) :
    Q s' := by
  -- a change takes the oldest flow file of the queue or leaves the queue, so the queue never grows
  have hchange : ∀ t t' : Scope, t.Tends t' → t'.pool.queue = t.pool.queue ∨
      t'.pool.queue.flowFiles.length < t.pool.queue.flowFiles.length := by
    intro t t' ht
    cases ht with
    | take waits =>
      refine .inr ?_
      rw [waits]
      exact Nat.lt_succ_self _
    | count name delta immediate =>
      unfold adjustCounter
      split <;> exact .inl rfl
    | _ => exact .inl rfl
  have hle : ∀ {t : Scope}, s.Works t →
      t.pool.queue.flowFiles.length ≤ s.pool.queue.flowFiles.length := by
    intro t ht
    induction ht with
    | refl => exact Nat.le_refl _
    | tail _ ht ih =>
      rcases hchange _ _ ht with heq | hlt
      · rw [heq]
        exact ih
      · exact Nat.le_of_lt (Nat.lt_of_lt_of_le hlt ih)
  induction hw with
  | refl => exact h
  | tail hw ht ih =>
    rcases hchange _ _ ht with heq | hlt
    · exact hstep _ _ ht heq (ih (heq.symm.trans hqueue))
    · have hless := Nat.lt_of_lt_of_le hlt (hle hw)
      rw [hqueue] at hless
      exact absurd hless (Nat.lt_irrefl _)

/-- What holds after a call that takes no flow file and makes none: what the changes keep that leave
the queue as it is. -/
theorem Operation.run_induction {op : Operation} {Q : Scope → Prop} {s : Scope}
    (hop : op.settles = false) (hpolls : op.polls = false) (hmade : op.made s = false)
    (hstep : ∀ t t' : Scope, t.Tends t' → t'.pool.queue = t.pool.queue → Q t → Q t')
    (hforget : Q s → Q s.clearRouted) (h : Q s) : Q (op.run s).2 := by
  obtain ⟨htrue, -⟩ | ⟨-, hworks | rfl⟩ := op.made_or_works hop s
  · rw [hmade] at htrue
    cases htrue
  · exact hworks.induction_of_queue (op.run_queue hop hpolls s) hstep h
  · exact hforget h

/-! ## What a session holds -/

namespace Program.Call

theorem obtained_eq (e : Call) : e.obtained = e.polled ++ e.made := by
  obtain ⟨op, r⟩ := e
  unfold polled made
  cases op <;> first | exact (List.append_nil _).symm | rfl | (cases r <;> rfl)

/-- What a call answers that takes flow files. -/
theorem polled_of_polls {op : Operation} (hop : op.polls = true) (fs : List FlowFile) :
    polled (op, .ok (.flowFiles fs)) = fs ∧ made (op, .ok (.flowFiles fs)) = [] := by
  cases op <;> first | exact ⟨rfl, rfl⟩ | cases hop

/-- What a call answers that makes a flow file. -/
theorem made_of_makes {op : Operation} (hop : op.makes = true) (f : FlowFile) :
    polled (op, .ok (.flowFile f)) = [] ∧ made (op, .ok (.flowFile f)) = [f] := by
  cases op <;> first | exact ⟨rfl, rfl⟩ | cases hop

/-- Other calls give the session nothing to hold. -/
theorem polled_made_eq_nil {op : Operation} {s : Scope} (hpolls : op.polls = false)
    (hmade : op.made s = false) :
    polled (op, (op.run s).1) = [] ∧ made (op, (op.run s).1) = [] := by
  unfold polled made
  rw [hpolls]
  refine ⟨rfl, ?_⟩
  cases hmakes : op.makes with
  | false => rfl
  | true =>
    unfold Operation.made at hmade
    rw [hmakes, Bool.true_and] at hmade
    cases hr : (op.run s).1 with
    | error e => rfl
    | ok a =>
      rw [hr] at hmade
      cases hmade

end Program.Call

namespace Operation

/-- The call takes the flow files `fs` from the queue. -/
structure Takes (op : Operation) (s : Scope) (fs : List FlowFile) : Prop where
  polls : op.polls = true
  fails : op.made s = false
  answer : (op.run s).1 = .ok (.flowFiles fs)
  session : (op.run s).2.session = fs.foldl Session.holdPolled s.session
  queue : s.pool.queue.flowFiles = fs ++ (op.run s).2.pool.queue.flowFiles
  polled : Call.polled (op, (op.run s).1) = fs
  made : Call.made (op, (op.run s).1) = []
  obtained : Call.obtained (op, (op.run s).1) = fs

/-- The call makes the flow file `f`, and the event of the kind tells so. -/
structure Makes (op : Operation) (s : Scope) (f : FlowFile) (kind : Provenance.Kind)
    (details : Text) : Prop where
  makes : op.makes = true
  succeeds : op.made s = true
  answer : (op.run s).1 = .ok (.flowFile f)
  number : f.id = s.pool.supply.nextId
  origin : kind = .create ∨ kind = .clone
  session : (op.run s).2.session = (s.session.hold f).record kind f.id details
  polled : Call.polled (op, (op.run s).1) = []
  made : Call.made (op, (op.run s).1) = [f]
  obtained : Call.obtained (op, (op.run s).1) = [f]

/-- The call neither takes nor makes flow files. -/
structure Rests (op : Operation) (s : Scope) : Prop where
  polls : op.polls = false
  fails : op.made s = false
  polled : Call.polled (op, (op.run s).1) = []
  made : Call.made (op, (op.run s).1) = []
  obtained : Call.obtained (op, (op.run s).1) = []

/-- **A call takes flow files, makes one, or does neither.** -/
theorem course (op : Operation) (s : Scope) :
    (∃ fs, op.Takes s fs) ∨ (∃ f kind details, op.Makes s f kind details) ∨ op.Rests s := by
  cases hpolls : op.polls with
  | true =>
    obtain ⟨fs, hanswer, hsession, hqueue⟩ := run_polls hpolls s
    obtain ⟨hpolled, hmade⟩ := Call.polled_of_polls hpolls fs
    rw [← hanswer] at hpolled hmade
    have hfails : op.made s = false := by
      cases op <;> first | rfl | cases hpolls
    refine .inl ⟨fs, hpolls, hfails, hanswer, hsession, hqueue, hpolled, hmade, ?_⟩
    rw [Call.obtained_eq, hpolled, hmade, List.append_nil]
  | false =>
    cases hsucceeds : op.made s with
    | true =>
      have hmakes : op.makes = true := (Bool.and_eq_true_iff.1 hsucceeds).1
      obtain ⟨f, kind, details, hanswer, hid, hkind, hsession⟩ := run_made hsucceeds
      obtain ⟨hpolled, hmade⟩ := Call.made_of_makes hmakes f
      rw [← hanswer] at hpolled hmade
      refine .inr (.inl ⟨f, kind, details, hmakes, hsucceeds, hanswer, hid, hkind, hsession,
        hpolled, hmade, ?_⟩)
      rw [Call.obtained_eq, hpolled, hmade, List.nil_append]
    | false =>
      obtain ⟨hpolled, hmade⟩ := Call.polled_made_eq_nil hpolls hsucceeds
      refine .inr (.inr ⟨hpolls, hsucceeds, hpolled, hmade, ?_⟩)
      rw [Call.obtained_eq, hpolled, hmade, List.nil_append]

end Operation

theorem Program.obtained_perm (calls : List Call) :
    (calls.flatMap Call.obtained).Perm
      (calls.flatMap Call.polled ++ calls.flatMap Call.made) := by
  simp only [funext Call.obtained_eq]
  exact (List.flatMap_append_perm calls Call.polled Call.made).symm

/-- A session holds the numbers of what its calls took and made.  Of flow files that were taken with
one number it keeps the first one. -/
structure Session.Reflects (s : Session) (calls : List Call) : Prop where
  keyed : s.Keyed
  held : ∀ id, (s.holdings.get? id).isSome ↔ id ∈ (calls.flatMap Call.obtained).map (·.id)
  polled : ∀ id, (s.holdings.get? id).bind (·.polled) =
    (calls.flatMap Call.polled).find? fun f => f.id = id

namespace Session

variable {s : Session}

theorem isSome_get?_foldl_holdPolled (s : Session) (fs : List FlowFile) (id : UInt64) :
    ((fs.foldl holdPolled s).holdings.get? id).isSome ↔
      (s.holdings.get? id).isSome ∨ id ∈ fs.map (·.id) := by
  induction fs generalizing s with
  | nil => simp
  | cons f rest ih =>
    rw [List.foldl_cons, ih, get?_holdPolled, List.map_cons, List.mem_cons]
    by_cases hid : id = f.id <;> simp [hid]

/-- Of several polled versions of a flow file the first one counts. -/
theorem polled_foldl_holdPolled (s : Session) (fs : List FlowFile) (id : UInt64) :
    ((fs.foldl holdPolled s).holdings.get? id).bind (·.polled) =
      ((s.holdings.get? id).bind (·.polled)).or (fs.find? fun f => f.id = id) := by
  induction fs generalizing s with
  | nil => simp
  | cons f rest ih =>
    rw [List.foldl_cons, ih, get?_holdPolled, List.find?_cons]
    by_cases hid : id = f.id
    · subst hid
      cases hg : s.holdings.get? f.id with
      | none => simp [polledHolding]
      | some h => cases hp : h.polled <;> simp [polledHolding, hp]
    · have hid' : ¬f.id = id := fun h => hid h.symm
      simp [hid, hid']

theorem polled_hold (s : Session) (f : FlowFile) (id : UInt64) :
    ((s.hold f).holdings.get? id).bind (·.polled) = (s.holdings.get? id).bind (·.polled) := by
  rw [get?_hold]
  by_cases hid : id = f.id
  · subst hid
    cases hg : s.holdings.get? f.id <;> simp
  · rw [if_neg hid]

theorem isSome_get?_hold (s : Session) (f : FlowFile) (id : UInt64) :
    ((s.hold f).holdings.get? id).isSome ↔ (s.holdings.get? id).isSome ∨ id = f.id := by
  rw [get?_hold]
  by_cases hid : id = f.id <;> simp [hid]

theorem Reflects.run {s : Scope} {calls : List Call} (h : s.session.Reflects calls)
    {op : Operation} (hop : op.settles = false) :
    (op.run s).2.session.Reflects (calls ++ [(op, (op.run s).1)]) := by
  have hkeyed := op.run_keyed h.keyed
  obtain ⟨fs, htakes⟩ | ⟨f, kind, details, hmakes⟩ | hrests := op.course s
  · refine ⟨hkeyed, fun id => ?_, fun id => ?_⟩
    · rw [htakes.session, isSome_get?_foldl_holdPolled, h.held, List.flatMap_append,
        List.flatMap_singleton, htakes.obtained, List.map_append, List.mem_append]
    · rw [htakes.session, polled_foldl_holdPolled, h.polled, List.flatMap_append,
        List.flatMap_singleton, htakes.polled, List.find?_append]
  · refine ⟨hkeyed, fun id => ?_, fun id => ?_⟩
    · rw [hmakes.session, List.flatMap_append, List.flatMap_singleton, hmakes.obtained,
        List.map_append, List.mem_append, List.map_singleton, List.mem_singleton, ← h.held]
      exact isSome_get?_hold s.session f id
    · rw [hmakes.session, List.flatMap_append, List.flatMap_singleton, hmakes.polled,
        List.append_nil, ← h.polled]
      exact polled_hold s.session f id
  · have hsame : (op.run s).2.session.Reflects calls := by
      refine Operation.run_induction (Q := fun t => t.session.Reflects calls) hop hrests.polls
        hrests.fails ?_ (fun h => ⟨⟨h.keyed.current, h.keyed.polled⟩, h.held, h.polled⟩) h
      intro t t' ht hqueue hr
      obtain ⟨f, rest, hq, rfl⟩ | ha := ht.take_or_amends hr.keyed
      · have hlength := congrArg (fun q => q.flowFiles.length) hqueue
        simp [Scope.take, hq] at hlength
      · refine ⟨ha.keyed, fun id => ?_, fun id => ?_⟩
        · rw [← hr.held, ← Option.isSome_map (f := Holding.polled), ha.polled, Option.isSome_map]
        · rw [← hr.polled]
          simpa only [Option.bind_map, Function.comp_def] using
            congrArg (Option.bind · fun p => p) (ha.polled id)
    refine ⟨hkeyed, fun id => ?_, fun id => ?_⟩
    · rw [hsame.held, List.flatMap_append, List.flatMap_singleton, hrests.obtained,
        List.append_nil]
    · rw [hsame.polled, List.flatMap_append, List.flatMap_singleton, hrests.polled,
        List.append_nil]

theorem Reflects.of_empty (hs : s.holdings = ∅) : s.Reflects [] := by
  refine ⟨.of_empty hs, fun id => ?_, fun id => ?_⟩ <;> rw [hs] <;> simp

theorem reflects : Invariant Reflects where
  idle s hs _ _ := .of_empty hs
  failed s calls e h := by
    refine ⟨h.keyed, fun id => ?_, fun id => ?_⟩
    · rw [h.held, List.flatMap_append]
      simp [Call.obtained]
    · rw [h.polled, List.flatMap_append]
      simp [Call.polled, Operation.polls]
  run _ _ _ hop h := h.run hop

end Session

end ProcessorBench
