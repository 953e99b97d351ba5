import ProcessorBench.Proofs.Bench.Run
import ProcessorBench.Proofs.Session.Balance

/-!
# Threads at a managed processor

A crew triggers a managed processor on many threads.  Each job opens a session of its own, does the
program of the processor on it, and ends it, while the other jobs do the same with theirs.

* `Bench.Station` — how far a job has come that opened a session, and what is true of the session.
* `Bench.Story` — where the jobs of a run stand, and what they did to the workspace; each step of a
  thread keeps it (`Bench.Story.step`).
* `Bench.run_managed` — at the end of a run there is a session for each job, which was committed or
  rolled back as the job succeeded or failed.
-/

set_option autoImplicit false

namespace ProcessorBench

open Workspace (Event)

theorem Procedure.within_within {σ τ ρ δ : Type} (p : Procedure σ δ) (f : τ → σ) (g : ρ → τ) :
    (p.within f).within g = p.within (f ∘ g) := by
  induction p with
  | done result => rfl
  | step deed next ih =>
    show Procedure.step deed _ = .step deed _
    congr 1
    funext r
    exact ih (f (g r))

variable {υ : Type}

namespace Bench

/-- A bench in a run, with the deeds so far. -/
abbrev Running (υ : Type) := Bench υ × List (Deed υ)

namespace Running

def stage (t : Running υ) : Stage υ := t.1.stage

def workspace (t : Running υ) : Workspace := t.1.workspace

/-- What happened at the workspace so far. -/
def events (t : Running υ) : List Event := t.2.filterMap Deed.event?

end Running

theorem trigger_logged (t : Running υ) : plant.logged.trigger t =
    (t.1.processor.procedure t.1.identifier).within Running.stage :=
  Procedure.within_within _ _ _

/-! ## One job -/

/-- The session of a trigger that ended so: it holds nothing, and it was committed, or rolled back
if the trigger failed. -/
structure Ends (outcome : Except Error Unit) (s : Session) : Prop where
  settled : s.commits + s.rollbacks = 1
  idle : s.holdings = ∅
  rolledBack : s.rollbacks = 1 ↔ outcome.isOk = false

theorem Ends.publish {s : Scope} (commits : s.session.commits = 0)
    (rollbacks : s.session.rollbacks = 0) : Ends (.ok ()) s.publish.session where
  settled := by
    show s.session.commits + 1 + s.session.rollbacks = 1
    omega
  idle := rfl
  rolledBack := by
    show s.session.rollbacks = 1 ↔ true = false
    simp [rollbacks]

theorem Ends.rollback {s : Scope} (e : Error) (commits : s.session.commits = 0)
    (rollbacks : s.session.rollbacks = 0) : Ends (.error e) s.rollback.session where
  settled := by
    show s.session.commits + (s.session.rollbacks + 1) = 1
    omega
  idle := rfl
  rolledBack := ⟨fun _ => rfl, fun _ => congrArg (· + 1) rollbacks⟩

/-- How far a job has come that opened the session with this number. -/
inductive Station (n : Nat) (s : Session) : Job (Running υ) (Deed υ) → Prop where
  /-- It is at the program, or about to end the session. -/
  | working (identifier : Text) (program : Program υ) (unsettled : program.Unsettled)
      (commits : s.commits = 0) (rollbacks : s.rollbacks = 0) :
      Station n s (.working ((program.on n (Processor.conclude identifier n)).within
        Running.stage))
  /-- It is about to undo what it did. -/
  | undoing (e : Error) (commits : s.commits = 0) (rollbacks : s.rollbacks = 0) :
      Station n s (.working (.step (.call n .rollback) fun _ => .done (.error e)))
  | settled (result : Except Error Unit) (ends : Ends result s) :
      Station n s (.working (.done result))
  | ended (result : Except Error Unit) (ends : Ends result s) : Station n s (.ended result)

variable {n : Nat} {s : Session} {t : Running υ}

/-- A job that backs out is where one is whose program failed. -/
theorem Station.abandon (identifier : Text) (e : Error) (commits : s.commits = 0)
    (rollbacks : s.rollbacks = 0) :
    Station (υ := υ) n s (.working ((Processor.abandon identifier n e).within Running.stage)) :=
  .working identifier (.finish (.error e)) (.finish _) commits rollbacks

theorem Station.done {result : Except Error Unit}
    (h : Station (υ := υ) n s (.working (.done result))) : Ends result s := by
  generalize hjob : Job.working (.done result) = job at h
  cases h with
  | settled _ ends =>
    cases hjob
    exact ends
  | ended | undoing => cases hjob
  | working identifier program unsettled =>
    -- a program is always followed by a deed
    cases unsettled with
    | finish outcome => cases outcome <;> cases hjob
    | _ => cases hjob

/-- What a call to a session does to the session. -/
theorem Running.session_call (hn : n < t.workspace.sessions.length) (op : Operation) :
    (Deed.effect (.call n op) t.stage).workspace.session n =
      (op.run ⟨t.workspace.session n, t.workspace.pool⟩).2.session := by
  show (t.workspace.perform n op).2.session n = _
  rw [Workspace.perform_eq (Workspace.scope?_of_lt hn), Workspace.session_resume hn, if_pos rfl]

/-- A deed that is at most a call to one session has no part in the others. -/
theorem Running.frame {deed : Deed υ} (hn : n < t.workspace.sessions.length)
    (hdeed : ∀ e, deed.event? = some e → ∃ op, e = .call n op) :
    (deed.effect t.stage).workspace.sessions.length = t.workspace.sessions.length ∧
      ∀ k ≠ n, (deed.effect t.stage).workspace.session k = t.workspace.session k := by
  rw [Deed.effect_workspace]
  cases he : deed.event? with
  | none => exact ⟨rfl, fun _ _ => rfl⟩
  | some e =>
    obtain ⟨op, rfl⟩ := hdeed e he
    have hcall : [Event.call n op].foldl Workspace.handle t.stage.workspace =
        t.workspace.resume n (op.run ⟨t.workspace.session n, t.workspace.pool⟩).2 := by
      show (t.workspace.perform n op).2 = _
      rw [Workspace.perform_eq (Workspace.scope?_of_lt hn)]
    rw [Option.toList_some, hcall]
    refine ⟨List.length_set, fun k hk => ?_⟩
    rw [Workspace.session_resume hn, if_neg hk]

/-- **A job at a station goes on to another one.**  If it does anything to the workspace, it calls
its session, which was not committed yet. -/
theorem Station.step {deed : Deed υ} {next : Running υ → Procedure (Running υ) (Deed υ)}
    (hn : n < t.workspace.sessions.length)
    (h : Station n (t.workspace.session n) (.working (.step deed next))) :
    (∀ e, deed.event? = some e → (t.workspace.session n).commits = 0 ∧ ∃ op, e = .call n op) ∧
      Station n ((deed.effect t.stage).workspace.session n) (.working (next t)) := by
  have hs := Workspace.scope?_of_lt hn
  generalize hjob : Job.working (.step deed next) = job at h
  cases h with
  | settled | ended => cases hjob
  | undoing e commits rollbacks =>
    cases hjob
    refine ⟨fun _ he => ⟨commits, _, (Option.some.inj he).symm⟩, .settled _ ?_⟩
    rw [Running.session_call hn]
    exact .rollback e commits rollbacks
  | working identifier program unsettled commits rollbacks =>
    cases unsettled with
    | finish outcome =>
      cases outcome with
      | error e =>
        cases hjob
        exact ⟨nofun, .undoing e commits rollbacks⟩
      | ok _ =>
        cases hjob
        refine ⟨fun _ he => ⟨commits, _, (Option.some.inj he).symm⟩, ?_⟩
        rw [Running.session_call hn]
        show Station n _ (.working ((Processor.settle identifier n
          (t.stage.answer n .commit)).within Running.stage))
        rw [Stage.answer_eq hs]
        obtain ⟨-, hrun⟩ | ⟨e, hrun⟩ :=
          Operation.run_commit ⟨t.workspace.session n, t.workspace.pool⟩
        · rw [hrun]
          exact .settled _ (.publish commits rollbacks)
        · rw [hrun]
          exact .abandon identifier e commits rollbacks
    | perform op next hop hnext =>
      cases hjob
      refine ⟨fun _ he => ⟨commits, _, (Option.some.inj he).symm⟩, ?_⟩
      rw [Running.session_call hn]
      obtain ⟨hcommits, hrollbacks, -⟩ :=
        Operation.run_unended hop ⟨t.workspace.session n, t.workspace.pool⟩
      exact .working identifier _ (hnext _) (hcommits.trans commits) (hrollbacks.trans rollbacks)
    | inspect next hnext =>
      cases hjob
      exact ⟨nofun, .working identifier _ (hnext _) commits rollbacks⟩
    | configure change next hnext =>
      cases hjob
      exact ⟨nofun, .working identifier _ (hnext _) commits rollbacks⟩
    | touch change next hnext =>
      cases hjob
      exact ⟨nofun, .working identifier _ (hnext _) commits rollbacks⟩

/-! ## All jobs -/

/-- What is true of a bench since its run began: its processor is the same, and its workspace is what
the deeds so far made of it, each of which was due. -/
structure Since (start : Bench υ) (t : Running υ) : Prop where
  processor : t.1.processor = start.processor
  workspace : t.workspace = t.events.foldl Workspace.handle start.workspace
  due : start.workspace.AllDue t.events

theorem Since.effect {start : Bench υ} {deed : Deed υ} (h : Since start t)
    (hdue : ∀ e, deed.event? = some e → t.workspace.Due e) :
    Since start (plant.logged.effect deed t) := by
  have hevents : Running.events (plant.logged.effect deed t) = t.events ++ deed.event?.toList := by
    show (t.2 ++ [deed]).filterMap Deed.event? = _
    rw [List.filterMap_append]
    cases hdeed : deed.event? <;> simp [Running.events, hdeed]
  refine ⟨h.processor, ?_, ?_⟩
  · rw [hevents, List.foldl_append, ← h.workspace]
    exact Deed.effect_workspace deed t.stage
  · rw [hevents]
    cases hdeed : deed.event? with
    | none => exact (List.append_nil _).symm ▸ h.due
    | some e => exact (Workspace.allDue_append _ _ _).2 ⟨h.due, h.workspace ▸ hdue e hdeed⟩

/-- Where the jobs of a run stand whose processor has this program.  The jobs that opened a session
did it in the order that is told, and those are the sessions that were opened in the run. -/
structure Story (body : Program υ) (threads : Nat) (start : Bench υ) (opened : List Nat)
    (c : Crew (Running υ) (Deed υ)) : Prop where
  orderly : c.Orderly threads
  since : Since start c.plant
  length : c.plant.workspace.sessions.length = start.workspace.sessions.length + opened.length
  others : ∀ m < start.workspace.sessions.length,
    c.plant.workspace.session m = start.workspace.session m
  nodup : opened.Nodup
  stations : ∀ (m i : Nat), opened[m]? = some i → ∃ job, c.jobs[i]? = some job ∧
    Station (start.workspace.sessions.length + m)
      (c.plant.workspace.session (start.workspace.sessions.length + m)) job
  /-- The others were not begun yet, or are about to open their sessions. -/
  waiting : ∀ (i : Nat) job, c.jobs[i]? = some job → i ∉ opened → job = .posted ∨
    ∃ identifier, job = .working ((Processor.manage identifier body).within Running.stage)
  /-- A single thread opens the sessions in the order of the jobs. -/
  inTurn : threads = 1 → opened = List.range opened.length

variable {body : Program υ} {threads : Nat} {start : Bench υ} {opened : List Nat}
  {c c' : Crew (Running υ) (Deed υ)}

/-- Nothing was begun yet. -/
theorem Story.initial (b : Bench υ) (options : RunOptions) :
    Story body b.engine.threads.toNat b [] (b.engine.crew options (b, [])) where
  orderly := (Engine.crew_told b.engine options (b, [])).orderly
  since := ⟨rfl, rfl, trivial⟩
  length := rfl
  others _ _ := rfl
  nodup := .nil
  stations _ _ h := by cases h
  waiting i job h _ := .inl (List.eq_of_mem_replicate (List.mem_of_getElem? h))
  inTurn _ := rfl

/-- What is neither a job nor a deed has no part in it. -/
theorem Story.aside (h : Story body threads start opened c) {b : Bench υ}
    (hprocessor : b.processor = c.plant.1.processor)
    (hworkspace : b.workspace = c.plant.1.workspace) :
    Story body threads start opened { c with plant := (b, c.plant.2) } where
  orderly := ⟨h.orderly.inTurn, h.orderly.busy⟩
  since := ⟨hprocessor.trans h.since.processor, hworkspace.trans h.since.workspace, h.since.due⟩
  length := by
    show b.workspace.sessions.length = _
    rw [hworkspace]
    exact h.length
  others := by
    show ∀ m < _, b.workspace.session m = _
    rw [hworkspace]
    exact h.others
  nodup := h.nodup
  stations := by
    show ∀ (m i : Nat), _ → ∃ job, _ ∧ Station _ (b.workspace.session _) job
    rw [hworkspace]
    exact h.stations
  waiting := h.waiting
  inTurn := h.inTurn

/-- A job is begun. -/
theorem Story.begins {i : Nat} (hbody : start.processor.trigger = .managed body)
    (h : Story body threads start opened c)
    (horderly : (c.start plant.logged i).Orderly threads)
    (hposted : c.jobs[i]? = some .posted) :
    Story body threads start opened (c.start plant.logged i) where
  orderly := horderly
  since := h.since
  length := h.length
  others := h.others
  nodup := h.nodup
  stations m j hj := by
    obtain ⟨job, hjob, hstation⟩ := h.stations m j hj
    have hne : i ≠ j := by
      rintro rfl
      rw [hposted, Option.some.injEq] at hjob
      subst hjob
      cases hstation
    exact ⟨job, (List.getElem?_set_ne hne).trans hjob, hstation⟩
  waiting j job hj hnot := by
    change (c.jobs.set i _)[j]? = some job at hj
    by_cases hij : i = j
    · subst hij
      rw [List.getElem?_set_self (Crew.lt_length_of_job hposted), Option.some.injEq] at hj
      refine .inr ⟨c.plant.1.identifier, ?_⟩
      rw [← hj, trigger_logged]
      unfold Processor.procedure
      rw [h.since.processor, hbody]
    · exact h.waiting j job ((List.getElem?_set_ne hij).symm.trans hj) hnot
  inTurn := h.inTurn

/-- A job that opened a session goes on. -/
theorem Story.proceed {m i : Nat} (h : Story body threads start opened c) (hm : opened[m]? = some i)
    {job : Job (Running υ) (Deed υ)} (hjobs : c'.jobs = c.jobs.set i job)
    (horderly : c'.Orderly threads) (hsince : Since start c'.plant)
    (hlength : c'.plant.workspace.sessions.length = c.plant.workspace.sessions.length)
    (hsame : ∀ k ≠ start.workspace.sessions.length + m,
      c'.plant.workspace.session k = c.plant.workspace.session k)
    (hstation : Station (start.workspace.sessions.length + m)
      (c'.plant.workspace.session (start.workspace.sessions.length + m)) job) :
    Story body threads start opened c' where
  orderly := horderly
  since := hsince
  length := hlength.trans h.length
  others k hk := (hsame k (by omega)).trans (h.others k hk)
  nodup := h.nodup
  stations k j hj := by
    obtain ⟨old, hold, hthere⟩ := h.stations k j hj
    rw [hjobs]
    by_cases hkm : k = m
    · subst hkm
      obtain rfl := Option.some.inj (hm.symm.trans hj)
      exact ⟨job, List.getElem?_set_self (Crew.lt_length_of_job hold), hstation⟩
    · have hne : i ≠ j := by
        rintro rfl
        exact hkm ((List.getElem?_inj (List.getElem?_eq_some_iff.1 hj).1 h.nodup).1 (hj.trans hm.symm))
      refine ⟨old, (List.getElem?_set_ne hne).trans hold, ?_⟩
      rw [hsame _ (by omega)]
      exact hthere
  waiting j job' hj hnot := by
    have hne : i ≠ j := by
      rintro rfl
      exact hnot (List.mem_of_getElem? hm)
    rw [hjobs, List.getElem?_set_ne hne] at hj
    exact h.waiting j job' hj hnot
  inTurn := h.inTurn

/-- A single thread that is about to open a session is at the first job without one. -/
theorem Story.next {i : Nat} {rest : Procedure (Running υ) (Deed υ)}
    (h : Story body 1 start opened c) (hjob : c.jobs[i]? = some (.working rest))
    (hnot : i ∉ opened) : i = opened.length := by
  have hle : opened.length ≤ i := by
    rw [h.inTurn rfl, List.mem_range] at hnot
    exact Nat.le_of_not_lt hnot
  refine Nat.le_antisymm (Nat.le_of_not_lt fun hlt => ?_) hle
  -- a job before it without a session would be one that the thread is at, too
  obtain ⟨old, hold⟩ : ∃ old, c.jobs[opened.length]? = some old :=
    ⟨_, List.getElem?_eq_getElem (Nat.lt_trans hlt (Crew.lt_length_of_job hjob))⟩
  have hfirst : opened.length ∉ opened := by
    rw [h.inTurn rfl, List.mem_range, List.length_range]
    exact Nat.lt_irrefl _
  obtain rfl | ⟨identifier, rfl⟩ := h.waiting _ old hold hfirst
  · cases h.orderly.inTurn _ i hlt hold _ hjob
  · exact Nat.ne_of_lt hlt (h.orderly.alone hold hjob)

/-- A job that was begun opens its session. -/
theorem Story.opens {i : Nat} {identifier : Text} (h : Story body threads start opened c)
    (hunsettled : body.Unsettled)
    (hjob : c.jobs[i]? = some (.working
      ((Processor.manage identifier body).within Running.stage))) (hnot : i ∉ opened)
    (hjobs : c'.jobs = c.jobs.set i (.working ((body.on c.plant.workspace.sessions.length
      (Processor.conclude identifier c.plant.workspace.sessions.length)).within Running.stage)))
    (horderly : c'.Orderly threads)
    (hplant : c'.plant = plant.logged.effect .openSession c.plant) :
    Story body threads start (opened ++ [i]) c' := by
  have hworkspace : c'.plant.workspace = c.plant.workspace.openSession.2 := by
    rw [hplant]
    rfl
  have hi := Crew.lt_length_of_job hjob
  have hlength : c'.plant.workspace.sessions.length =
      start.workspace.sessions.length + (opened ++ [i]).length := by
    rw [hworkspace, Workspace.openSession, List.length_append, List.length_append, h.length]
    rfl
  have hsession (k : Nat) : c'.plant.workspace.session k = c.plant.workspace.session k := by
    rw [hworkspace, Workspace.session_openSession]
  refine ⟨horderly, ?_, hlength, fun m hm => (hsession m).trans (h.others m hm), ?_,
    fun m j hj => ?_, fun j job hj hnot' => ?_, fun hthreads => ?_⟩
  · rw [hplant]
    exact h.since.effect fun _ he => by cases he; trivial
  · exact h.nodup.append (List.nodup_singleton i) (List.disjoint_singleton.2 hnot)
  · rw [hsession, hjobs]
    rcases Nat.lt_trichotomy m opened.length with hlt | rfl | hgt
    · rw [List.getElem?_append_left hlt] at hj
      obtain ⟨job, hthere, hstation⟩ := h.stations m j hj
      have hne : i ≠ j := by
        rintro rfl
        exact hnot (List.mem_of_getElem? hj)
      exact ⟨job, (List.getElem?_set_ne hne).trans hthere, hstation⟩
    · rw [List.getElem?_concat_length, Option.some.injEq] at hj
      subst hj
      rw [← h.length]
      have hnew : c.plant.workspace.session c.plant.workspace.sessions.length = {} := by
        unfold Workspace.session
        rw [List.getElem?_eq_none (Nat.le_refl _)]
        rfl
      rw [hnew]
      exact ⟨_, List.getElem?_set_self hi, .working identifier body hunsettled rfl rfl⟩
    · rw [List.getElem?_eq_none (by simp; omega)] at hj
      cases hj
  · rw [List.mem_append, not_or, List.mem_singleton] at hnot'
    rw [hjobs, List.getElem?_set_ne (Ne.symm hnot'.2)] at hj
    exact h.waiting j job hj hnot'.1
  · subst hthreads
    rw [List.length_append, List.length_singleton, List.range_succ, ← h.inTurn rfl,
      h.next hjob hnot]

/-- **Whatever a thread does, the story goes on.** -/
theorem Story.step (hbody : start.processor.trigger = .managed body)
    (hunsettled : body.Unsettled) (h : Story body threads start opened c)
    (hstep : Crew.Step plant.logged threads c c') :
    ∃ opened, Story body threads start opened c' := by
  have horderly := h.orderly.step hstep
  cases hstep with
  | start i posted => exact ⟨opened, h.begins hbody horderly posted⟩
  | proceed i rest working =>
    by_cases hmem : i ∈ opened
    · obtain ⟨m, hm⟩ := List.mem_iff_getElem?.1 hmem
      obtain ⟨job, hjob, hstation⟩ := h.stations m i hm
      obtain rfl := Option.some.inj (working.symm.trans hjob)
      refine ⟨opened, ?_⟩
      cases rest with
      | done result =>
        exact h.proceed hm rfl horderly h.since rfl (fun _ _ => rfl) (.ended _ hstation.done)
      | step deed next =>
        have hn : start.workspace.sessions.length + m < c.plant.workspace.sessions.length := by
          have hlt := (List.getElem?_eq_some_iff.1 hm).1
          have hlength := h.length
          omega
        obtain ⟨hdue, hthere⟩ := hstation.step hn
        obtain ⟨hlength, hsame⟩ := Running.frame hn fun e he => (hdue e he).2
        refine h.proceed hm rfl horderly (h.since.effect fun e he => ?_) hlength hsame hthere
        obtain ⟨hcommits, op, rfl⟩ := hdue e he
        exact hcommits
    · obtain hposted | ⟨identifier, hjob⟩ := h.waiting i _ working hmem
      · cases hposted
      · cases hjob
        exact ⟨_, h.opens hunsettled working hmem rfl horderly rfl⟩

/-! ## Whole runs -/

/-- All sessions that were opened, when all jobs have ended. -/
theorem Story.sessions {results : List (Except Error Unit)} (h : Story body threads start opened c)
    (hjobs : c.jobs.length = results.length)
    (hended : ∀ (i : Nat) r, results[i]? = some r → c.jobs[i]? = some (.ended r)) :
    opened.Perm (List.range results.length) ∧ ∃ added,
      c.plant.workspace.sessions = start.workspace.sessions ++ added ∧
        List.Forall₂ (fun i s => ∃ r, results[i]? = some r ∧ Ends r s) opened added := by
  have hlt : ∀ i ∈ opened, i < results.length := by
    intro i hi
    obtain ⟨m, hm⟩ := List.mem_iff_getElem?.1 hi
    obtain ⟨job, hjob, -⟩ := h.stations m i hm
    exact hjobs ▸ Crew.lt_length_of_job hjob
  have hopened : ∀ i < results.length, i ∈ opened := by
    intro i hi
    by_contra hnot
    obtain hposted | ⟨identifier, hworking⟩ :=
      h.waiting i _ (hended i _ (List.getElem?_eq_getElem hi)) hnot
    · cases hposted
    · cases hworking
  refine ⟨(List.perm_ext_iff_of_nodup h.nodup List.nodup_range).2 fun i => ?_,
    (List.range opened.length).map fun m =>
      c.plant.workspace.session (start.workspace.sessions.length + m), ?_, ?_⟩
  · rw [List.mem_range]
    exact ⟨hlt i, hopened i⟩
  · rw [c.plant.workspace.sessions_eq, h.length, List.range_add, List.map_append, List.map_map,
      start.workspace.sessions_eq, List.length_map, List.length_range]
    congr 1
    exact List.map_congr_left fun m hm => h.others m (List.mem_range.1 hm)
  · refine List.forall₂_iff_get.2 ⟨by simp, fun m hm _ => ?_⟩
    have hget : opened[m]? = some opened[m] := List.getElem?_eq_getElem hm
    obtain ⟨job, hjob, hstation⟩ := h.stations m _ hget
    have hi := hlt _ (List.mem_of_getElem? hget)
    have hresult := hended _ _ (List.getElem?_eq_getElem hi)
    obtain rfl := Option.some.inj (hjob.symm.trans hresult)
    refine ⟨_, List.getElem?_eq_getElem hi, ?_⟩
    simp only [List.get_eq_getElem, List.getElem_map, List.getElem_range]
    cases hstation with
    | ended _ ends => exact ends

variable {b : Bench υ}

/-- Threads, phases and notes go on with the story. -/
theorem story_kept (hbody : start.processor.trigger = .managed body)
    (hunsettled : body.Unsettled) : Crew.Kept plant.logged threads fun _ c =>
      ∃ opened, Story body threads start opened c where
  step hstep := fun ⟨_, h⟩ => h.step hbody hunsettled hstep
  fire {_ c} phase := fun ⟨opened, h⟩ =>
    have haside := fire_aside c.plant.1 phase
    ⟨opened, h.aside haside.1 haside.2⟩
  note _ _ := fun ⟨opened, h⟩ => ⟨opened, h.aside rfl rfl⟩

theorem story_after (hbody : b.processor.trigger = .managed body) (hunsettled : body.Unsettled)
    (options : RunOptions) (turns : Crew.Turns) :
    ∃ opened, Story body b.engine.threads.toNat b opened
      (b.engine.after plant.logged options turns (b, [])) :=
  Engine.run_keeps (story_kept hbody hunsettled) options turns (b, []) ⟨[], .initial b options⟩

/-- **All that happens in a run is due**: no session is used after it was committed. -/
theorem allDue_runEvents (hbody : b.processor.trigger = .managed body)
    (hunsettled : body.Unsettled) (options : RunOptions) (turns : Crew.Turns) :
    b.workspace.AllDue (b.runEvents options turns) := by
  unfold runEvents
  split
  · obtain ⟨opened, hstory⟩ := story_after hbody hunsettled options turns
    exact hstory.since.due
  · trivial

/-- **Each job of a run opens a session and ends it.**  The sessions of a run with a result for each
iteration are as many, in the order in which their jobs came to open them, and each ended as its job
did.  On a single thread that is the order of the jobs. -/
theorem run_managed (hbody : b.processor.trigger = .managed body) (hunsettled : body.Unsettled)
    (hadmitted : b.admitted = true) {options : RunOptions} {turns : Crew.Turns}
    (hle : 1 ≤ options.iterations)
    (hresults : (b.engine.results plant options turns b).length = options.iterations.toNat) :
    ∃ opened added, opened.Perm (List.range options.iterations.toNat) ∧
      (b.engine.threads = 1 → opened = List.range options.iterations.toNat) ∧
      (b.run options turns).2.workspace.sessions = b.workspace.sessions ++ added ∧
      List.Forall₂ (fun i s => ∃ r, (b.engine.results plant options turns b)[i]? = some r ∧
        Ends r s) opened added := by
  obtain ⟨⟨opened, hstory⟩, hcases⟩ := Engine.run_crew (e := b.engine)
    (story_kept hbody hunsettled) options turns (b, []) ⟨[], .initial b options⟩ hle
  have hcalls := (Engine.run_logged b.engine plant options turns b).2.1
  obtain ⟨-, error, -, hfailed, -⟩ | ⟨-, -, -, -, -, -, -, htold⟩ := hcases
  · rw [hcalls] at hfailed
    unfold Engine.results at hresults
    rw [hfailed] at hresults
    change 0 = _ at hresults
    omega
  · have hended := htold.results
    rw [hcalls] at hended
    obtain ⟨hperm, added, hadded, hends⟩ :=
      hstory.sessions (htold.length.trans hresults.symm) hended
    rw [hresults] at hperm
    refine ⟨opened, added, hperm, fun hone => ?_, ?_, hends⟩
    · rw [hstory.inTurn (by rw [hone]; rfl), hperm.length_eq, List.length_range]
    · rw [(run_events b options turns).2, ← hadded, hstory.since.workspace]
      unfold runEvents
      rw [if_pos hadmitted]
      rfl

end Bench

end ProcessorBench
