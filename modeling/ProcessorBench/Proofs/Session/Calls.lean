import Mathlib.Data.List.DropRight
import ProcessorBench.Proofs.Processor.Managed
import ProcessorBench.Proofs.Session.Place

/-!
# The calls to a session

What a session did can be told by the calls to it and their answers.  A commit that goes through
and a rollback end a unit of work; what a session holds and what waits in it stems from the calls
since the last such end (`Program.recent`).

* `Operation.run_polls`, `Operation.run_made` — what a call that takes or makes flow files leaves,
  told by its answer.
* `Operation.run_aside` — what stays when a call does neither, nor drops or counts;
  `Operation.run_dropped` and `Operation.run_deferrals` tell what these two do.
* `Workspace.calls` — the calls at a workspace, where several sessions work in turns; what every
  event keeps holds after all of them (`Workspace.run_induction`).
* `Workspace.Committable` — when a commit at a workspace goes through.
-/

set_option autoImplicit false

namespace ProcessorBench

namespace Operation

/-- The operation takes flow files from the queue. -/
def polls : Operation → Bool
  | poll | pollUpTo _ => true
  | _ => false

/-- What the operation adds to the counters of the session, for the commit. -/
def deferrals : Operation → List (Text × Int64)
  | adjustCounter name delta false => [(name, delta)]
  | _ => []

end Operation

namespace Program

namespace Call

/-- The call ended the unit of work. -/
def ends (e : Call) : Bool := e.1.settles && e.2.isOk

/-- The flow files that the call took from the queue. -/
def polled (e : Call) : List FlowFile := if e.1.polls then obtained e else []

/-- The flow files that the call made. -/
def made (e : Call) : List FlowFile := if e.1.makes then obtained e else []

/-- The number of the flow file that the call gave up. -/
def dropped : Call → List UInt64
  | (.drop f, .ok _) => [f.id]
  | _ => []

end Call

/-- Only a commit and a rollback can end the unit of work. -/
theorem Call.ends_of_unsettled {op : Operation} (hop : op.settles = false)
    (r : Except Error Answer) : Call.ends (op, r) = false := by
  unfold ends
  rw [hop, Bool.false_and]

/-- The calls since the last one that ended a unit of work. -/
def recent (calls : List Call) : List Call := calls.rtakeWhile fun e => !Call.ends e

theorem recent_append_of_ends {calls : List Call} {e : Call} (he : e.ends = true) :
    recent (calls ++ [e]) = [] :=
  List.rtakeWhile_concat_neg _ _ _ (by simp [he])

theorem recent_append_of_not_ends {calls : List Call} {e : Call} (he : e.ends = false) :
    recent (calls ++ [e]) = recent calls ++ [e] :=
  List.rtakeWhile_concat_pos _ _ _ (by simp [he])

theorem recent_cons (e : Call) (rest : List Call) :
    recent (e :: rest) = if e.ends || rest.any Call.ends then recent rest else e :: rest := by
  induction rest using List.reverseRecOn with
  | nil => cases he : e.ends <;> simp [recent, he, List.rtakeWhile]
  | append_singleton rest d ih =>
    rw [← List.cons_append]
    cases hd : d.ends with
    | true =>
      rw [recent_append_of_ends hd, recent_append_of_ends hd]
      simp [hd]
    | false =>
      rw [recent_append_of_not_ends hd, recent_append_of_not_ends hd, ih]
      cases h : e.ends || rest.any Call.ends <;> simp_all

end Program

open Program (Call recent)

namespace Operation

variable {op : Operation} {s : Scope}

/-- A commit goes through and publishes, or it fails and leaves everything as it is. -/
theorem run_commit (s : Scope) :
    (s.session.undecided? = none ∧ run .commit s = (.ok .done, s.publish)) ∨
      ∃ e, run .commit s = (.error e, s) := by
  simp only [run, run.answer, Scope.commit]
  cases hs : s.session.undecided? with
  | none => exact .inl ⟨rfl, rfl⟩
  | some id => exact .inr ⟨_, rfl⟩

theorem commit_or_rollback (hop : op.settles = true) : op = .commit ∨ op = .rollback := by
  cases op with
  | commit => exact .inl rfl
  | rollback => exact .inr rfl
  | _ => cases hop

/-- A call that takes flow files answers those that the session takes up and that leave the
queue. -/
theorem run_polls (hop : op.polls = true) (s : Scope) :
    ∃ fs, (op.run s).1 = .ok (.flowFiles fs) ∧
      (op.run s).2.session = fs.foldl Session.holdPolled s.session ∧
      s.pool.queue.flowFiles = fs ++ (op.run s).2.pool.queue.flowFiles := by
  cases op with
  | poll =>
    simp only [run, run.give, Scope.poll, Pool.poll, Queue.poll]
    cases hq : s.pool.queue.flowFiles with
    | nil => exact ⟨[], rfl, rfl, hq.symm⟩
    | cons f rest => exact ⟨[f], rfl, rfl, rfl⟩
  | pollUpTo max =>
    exact ⟨s.pool.queue.flowFiles.take max, rfl, rfl, (List.take_append_drop max _).symm⟩
  | _ => cases hop

/-- A call that makes a flow file answers it, under the next number. -/
theorem run_made (hop : op.made s = true) :
    ∃ f kind details, (op.run s).1 = .ok (.flowFile f) ∧ f.id = s.pool.supply.nextId ∧
      (kind = .create ∨ kind = .clone) ∧
      (op.run s).2.session = (s.session.hold f).record kind f.id details := by
  cases op with
  | create => exact ⟨_, .create, [], rfl, rfl, .inl rfl, rfl⟩
  | createChild parent =>
    simp only [made, makes, run, run.answer, Scope.createChild, Scope.withHeld] at hop ⊢
    cases hh : s.session.held parent with
    | error e =>
      rw [hh] at hop
      cases hop
    | ok h => exact ⟨_, .create, _, rfl, rfl, .inl rfl, rfl⟩
  | clone source =>
    simp only [made, makes, run, run.answer, Scope.clone, Scope.withHeld] at hop ⊢
    cases hh : s.session.held source with
    | error e =>
      rw [hh] at hop
      cases hop
    | ok h => exact ⟨_, .clone, _, rfl, rfl, .inr rfl, rfl⟩
  | _ => cases hop

end Operation

/-! ## What a call leaves aside -/

/-- What stays when a call neither takes nor gives up flow files and adjusts no counter. -/
structure Scope.Aside (s t : Scope) : Prop where
  queue : t.pool.queue = s.pool.queue
  counters : t.session.counters = s.session.counters
  drops : t.session.events.filter (·.kind = .drop) = s.session.events.filter (·.kind = .drop)

namespace Scope

theorem Aside.refl (s : Scope) : s.Aside s := ⟨rfl, rfl, rfl⟩

theorem Aside.trans {s t u : Scope} (h : s.Aside t) (h' : t.Aside u) : s.Aside u :=
  ⟨h'.queue.trans h.queue, h'.counters.trans h.counters, h'.drops.trans h.drops⟩

/-- A session that records something else than the end of a flow file. -/
theorem Aside.of_record {s t : Scope} (event : Provenance.Event)
    (hqueue : t.pool.queue = s.pool.queue) (hcounters : t.session.counters = s.session.counters)
    (hevents : t.session.events = s.session.events ++ [event]) (hkind : event.kind ≠ .drop) :
    s.Aside t where
  queue := hqueue
  counters := hcounters
  drops := by
    rw [hevents, List.filter_append, List.filter_singleton]
    simp [hkind]

theorem withHeld_aside {α : Type} {s : Scope} {f : FlowFile}
    {k : Holding → Except Error α × Scope} (h : ∀ g, s.Aside (k g).2) :
    s.Aside (s.withHeld f k).2 :=
  withHeld_snd (.refl s) fun g _ => h g

theorem replaceContent_aside (s : Scope) (h : Holding) (bytes : List UInt8) :
    s.Aside (s.replaceContent h bytes).2 :=
  .of_record _ rfl rfl rfl nofun

theorem replaceAttributes_aside (s : Scope) (h : Holding) (attributes : Attributes)
    (details : Text) : s.Aside (s.replaceAttributes h attributes details).2 :=
  .of_record _ rfl rfl rfl nofun

theorem create_aside (s : Scope) : s.Aside s.create.2 := .of_record _ rfl rfl rfl nofun

theorem createChild_aside (s : Scope) (parent : FlowFile) : s.Aside (s.createChild parent).2 :=
  withHeld_aside fun _ =>
    .of_record { kind := .create, flowFile := _, details := _ } rfl rfl rfl nofun

theorem clone_aside (s : Scope) (source : FlowFile) : s.Aside (s.clone source).2 :=
  withHeld_aside fun _ =>
    .of_record { kind := .clone, flowFile := _, details := _ } rfl rfl rfl nofun

theorem importBytes_aside (s : Scope) (bytes : List UInt8) (f : FlowFile) :
    s.Aside (s.importBytes bytes f).2 :=
  withHeld_aside fun h => s.replaceContent_aside h bytes

theorem importStream_aside (s : Scope) (stream : Stream) (f : FlowFile) :
    s.Aside (s.importStream stream f).2 := by
  refine withHeld_aside fun _ => ?_
  cases stream with
  | broken => exact .refl s
  | readable bytes => exact s.importBytes_aside bytes f

theorem write_aside (s : Scope) (writer : Option Writer) (f : FlowFile) :
    s.Aside (s.write writer f).2 := by
  unfold write
  cases writer with
  | none => exact .refl s
  | some writer =>
    refine withHeld_aside fun h => ?_
    cases writer h.current.content.bytes with
    | error e => exact .refl s
    | ok bytes => exact s.replaceContent_aside h bytes

theorem putAttribute_aside (s : Scope) (f : FlowFile) (key value : Text) :
    s.Aside (s.putAttribute f key value).2 :=
  withHeld_aside fun h => s.replaceAttributes_aside h (h.current.attributes.insert key value) key

theorem putAttributes_aside (s : Scope) (f : FlowFile) (attributes : Attributes) :
    s.Aside (s.putAttributes f attributes).2 := by
  refine withHeld_aside fun h => ?_
  split
  · exact .refl s
  · exact s.replaceAttributes_aside h (h.current.attributes.merge attributes) []

theorem removeAttribute_aside (s : Scope) (f : FlowFile) (key : Text) :
    s.Aside (s.removeAttribute f key).2 := by
  refine withHeld_aside fun h => ?_
  split
  · exact s.replaceAttributes_aside h (h.current.attributes.erase key) key
  · exact .refl s

theorem read_aside (s : Scope) (f : FlowFile) : s.Aside (s.read f).2 :=
  withHeld_aside fun _ => .refl s

theorem route_aside (s : Scope) (f : FlowFile) (relationship : Text) :
    s.Aside (s.route f relationship).2 := by
  refine withHeld_aside fun h => ?_
  split <;> exact ⟨rfl, rfl, rfl⟩

theorem routeAll_aside (s : Scope) (fs : List FlowFile) (relationship : Text) :
    s.Aside (s.routeAll fs relationship).2 := by
  induction fs generalizing s with
  | nil => exact .refl s
  | cons f rest ih =>
    have hf := s.route_aside f relationship
    unfold routeAll
    split
    · rename_i e t ht
      rw [ht] at hf
      exact hf
    · rename_i t ht
      rw [ht] at hf
      exact hf.trans (ih t)

theorem giveBack_aside (s : Scope) (f : FlowFile) : s.Aside (s.giveBack f).2 := by
  refine withHeld_aside fun h => ?_
  split <;> exact ⟨rfl, rfl, rfl⟩

end Scope

namespace Operation

variable {op : Operation}

theorem run_aside (hop : op.settles = false) (hpolls : op.polls = false)
    (hcounter : ∀ name delta immediate, op ≠ .adjustCounter name delta immediate)
    (hdrop : ∀ f, op ≠ .drop f) (s : Scope) : s.Aside (op.run s).2 := by
  cases op with
  | create => exact s.create_aside
  | createChild parent => exact s.createChild_aside parent
  | clone source => exact s.clone_aside source
  | importBytes bytes f => exact s.importBytes_aside bytes f
  | importStream stream f => exact s.importStream_aside stream f
  | write writer f => exact s.write_aside writer f
  | putAttribute f key value => exact s.putAttribute_aside f key value
  | putAttributes f attributes => exact s.putAttributes_aside f attributes
  | removeAttribute f key => exact s.removeAttribute_aside f key
  | read f => exact s.read_aside f
  | route f relationship => exact s.route_aside f relationship
  | routeAll fs relationship => exact s.routeAll_aside fs relationship
  | giveBack f => exact s.giveBack_aside f
  | clearRouted => exact ⟨rfl, rfl, rfl⟩
  | adjustCounter name delta immediate => exact absurd rfl (hcounter name delta immediate)
  | drop f => exact absurd rfl (hdrop f)
  | poll | pollUpTo max => cases hpolls
  | commit | rollback => cases hop

theorem run_queue (hop : op.settles = false) (hpolls : op.polls = false) (s : Scope) :
    (op.run s).2.pool.queue = s.pool.queue := by
  cases op with
  | adjustCounter name delta immediate => cases immediate <;> rfl
  | drop f =>
    exact Scope.withHeld_snd (P := fun t => t.pool.queue = s.pool.queue) rfl fun _ _ => rfl
  | _ => exact (run_aside hop hpolls (by simp) (by simp) s).queue

theorem counters_foldl_holdPolled (s : Session) (fs : List FlowFile) :
    (fs.foldl Session.holdPolled s).counters = s.counters := by
  induction fs generalizing s with
  | nil => rfl
  | cons f rest ih =>
    rw [List.foldl_cons, ih]
    unfold Session.holdPolled
    split <;> rfl

theorem events_foldl_holdPolled (s : Session) (fs : List FlowFile) :
    (fs.foldl Session.holdPolled s).events = s.events := by
  induction fs generalizing s with
  | nil => rfl
  | cons f rest ih =>
    rw [List.foldl_cons, ih]
    unfold Session.holdPolled
    split <;> rfl

/-- Counters of the session are only adjusted by the operation that is there for it. -/
theorem run_deferrals (hop : op.settles = false) (s : Scope) :
    (op.run s).2.session.counters = s.session.counters.adjustAll op.deferrals := by
  cases hpolls : op.polls with
  | true =>
    obtain ⟨fs, -, hsession, -⟩ := run_polls hpolls s
    rw [hsession, counters_foldl_holdPolled]
    cases op <;> first | rfl | cases hpolls
  | false =>
    cases op with
    | adjustCounter name delta immediate => cases immediate <;> rfl
    | drop f =>
      exact Scope.withHeld_snd (P := fun t => t.session.counters = s.session.counters) rfl
        fun _ _ => rfl
    | _ => exact (run_aside hop hpolls (by simp) (by simp) s).counters

/-- Each call that gives up a flow file records that, and no other call does. -/
theorem run_dropped (hop : op.settles = false) (s : Scope) :
    ((op.run s).2.session.events.filter (·.kind = .drop)).map (·.flowFile) =
      (s.session.events.filter (·.kind = .drop)).map (·.flowFile) ++
        Call.dropped (op, (op.run s).1) := by
  cases hpolls : op.polls with
  | true =>
    obtain ⟨fs, -, hsession, -⟩ := run_polls hpolls s
    rw [hsession, events_foldl_holdPolled]
    cases op <;> first | exact (List.append_nil _).symm | cases hpolls
  | false =>
    cases op with
    | adjustCounter name delta immediate => cases immediate <;> exact (List.append_nil _).symm
    | drop f =>
      simp only [run, run.answer, Scope.drop, Scope.withHeld]
      cases s.session.held f with
      | error e => exact (List.append_nil _).symm
      | ok h => simp [Session.record, Session.assign, Call.dropped, Except.map]
    | _ =>
      rw [(run_aside hop hpolls (by simp) (by simp) s).drops]
      exact (List.append_nil _).symm

end Operation

/-! ## Calls at a workspace -/

namespace Workspace

/-- The call that a session answers in the event, with the number of the session. -/
def answered (w : Workspace) : Event → List (Nat × Call)
  | .call n op => ((w.perform n op).1.map fun r => (n, op, r)).toList
  | _ => []

/-- The calls that sessions answer in a row of events. -/
def calls : Workspace → List Event → List (Nat × Call)
  | _, [] => []
  | w, e :: rest => w.answered e ++ (w.handle e).calls rest

theorem calls_append (w : Workspace) (events events' : List Event) :
    w.calls (events ++ events') = w.calls events ++ (events.foldl handle w).calls events' := by
  induction events generalizing w with
  | nil => rfl
  | cons e rest ih => rw [List.cons_append, calls, calls, ih, List.foldl_cons, List.append_assoc]

/-- What every event keeps, told with the calls so far, holds after a row of events. -/
theorem run_induction {I : Workspace → List (Nat × Call) → Prop}
    (hopen : ∀ w l, I w l → I w.openSession.2 l)
    (henqueue : ∀ w l bytes attributes, I w l → I (w.enqueueBytes bytes attributes) l)
    (hcall : ∀ w l n s (op : Operation), w.scope? n = some s → I w l →
      I (w.resume n (op.run s).2) (l ++ [(n, op, (op.run s).1)]))
    {w : Workspace} (h : I w []) (events : List Event) :
    I (events.foldl handle w) (w.calls events) := by
  induction events using List.reverseRecOn with
  | nil => exact h
  | append_singleton events e ih =>
    rw [calls_append, calls, calls, List.append_nil, List.foldl_append, List.foldl_cons,
      List.foldl_nil]
    generalize events.foldl handle w = v at ih
    cases e with
    | openSession => simpa [answered, handle] using hopen v _ ih
    | enqueue bytes attributes => simpa [answered, handle] using henqueue v _ bytes attributes ih
    | call n op =>
      cases hs : v.scope? n with
      | none => simpa [answered, handle, perform, hs] using ih
      | some s => simpa [answered, handle, perform, hs] using hcall v _ n s op hs ih

/-- The calls to one of the sessions. -/
def callsTo (n : Nat) (calls : List (Nat × Call)) : List Call :=
  (calls.filter fun e => e.1 = n).map Prod.snd

theorem callsTo_cons (n m : Nat) (e : Call) (calls : List (Nat × Call)) :
    callsTo n ((m, e) :: calls) = if m = n then e :: callsTo n calls else callsTo n calls := by
  unfold callsTo
  rw [List.filter_cons]
  by_cases h : m = n <;> simp [h]

theorem callsTo_singleton (n m : Nat) (e : Call) :
    callsTo n [(m, e)] = if m = n then [e] else [] :=
  callsTo_cons n m e []

theorem callsTo_append (n : Nat) (calls calls' : List (Nat × Call)) :
    callsTo n (calls ++ calls') = callsTo n calls ++ callsTo n calls' := by
  unfold callsTo
  rw [List.filter_append, List.map_append]

/-! ## Ends of a unit of work at a workspace -/

/-- The session is open, and it is decided what becomes of each flow file that it holds. -/
structure Committable (w : Workspace) (n : Nat) : Prop where
  isOpen : n < w.sessions.length
  decided : (w.session n).undecided? = none

/-- The workspace after a commit of the session that goes through. -/
def publish (w : Workspace) (n : Nat) : Workspace :=
  w.resume n (Scope.publish ⟨w.session n, w.pool⟩)

variable {w : Workspace} {n : Nat}

theorem Committable.perform (h : w.Committable n) :
    w.perform n .commit = (some (.ok .done), w.publish n) := by
  obtain ⟨-, hrun⟩ | ⟨e, hrun⟩ := Operation.run_commit ⟨w.session n, w.pool⟩
  · unfold Workspace.perform
    rw [scope?_of_lt h.isOpen]
    dsimp only
    rw [hrun]
    rfl
  · have hdecided := h.decided
    unfold Operation.run Operation.run.answer Scope.commit at hrun
    simp only [hdecided] at hrun
    cases hrun

theorem committable_of_perform (h : (w.perform n .commit).1 = some (.ok .done)) :
    w.Committable n := by
  unfold perform at h
  cases hs : w.scope? n with
  | none =>
    rw [hs] at h
    cases h
  | some s =>
    obtain ⟨hn, hsession, -⟩ := scope?_eq_some hs
    rw [hs] at h
    dsimp only at h
    obtain ⟨hdecided, -⟩ | ⟨e, hrun⟩ := Operation.run_commit s
    · rw [hsession] at hdecided
      exact ⟨hn, hdecided⟩
    · rw [hrun] at h
      cases h

theorem session_publish (hn : n < w.sessions.length) (m : Nat) :
    (w.publish n).session m =
      if m = n then (Scope.publish ⟨w.session n, w.pool⟩).session else w.session m :=
  session_resume hn _ m

/-- A commit that fails changes nothing. -/
theorem perform_commit_of_error {e : Error} (h : (w.perform n .commit).1 = some (.error e)) :
    (w.perform n .commit).2 = w := by
  unfold perform at h ⊢
  cases hs : w.scope? n with
  | none => rfl
  | some s =>
    rw [hs] at h
    dsimp only at h ⊢
    obtain ⟨-, hrun⟩ | ⟨e, hrun⟩ := Operation.run_commit s
    · rw [hrun] at h
      cases h
    · rw [hrun]
      exact resume_self hs

/-- A rollback publishes nothing. -/
theorem provenance_perform_rollback (w : Workspace) (n : Nat) :
    (w.perform n .rollback).2.pool.provenance = w.pool.provenance := by
  unfold perform
  cases hs : w.scope? n with
  | none => rfl
  | some s =>
    show s.pool.provenance = _
    rw [(scope?_eq_some hs).2.2]

end Workspace

end ProcessorBench
