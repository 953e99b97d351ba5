import Mathlib.Logic.Relation
import ProcessorBench.Proofs.Engine.Run
import ProcessorBench.Proofs.FlowFile.Supply

/-!
# What a crew does

Whatever turns the jobs of a crew have, threads only begin jobs and go on with them (`Crew.Step`).
Jobs are begun in the order in which they were posted, by threads that are free (`Crew.Orderly`), so
the engine never waits for a job that no thread would begin (`Crew.await_steps`).  All that threads
may do while it waits is told by turns (`Crew.steps_iff`, `Crew.exists_await`).

* `Crew.Kept` — what steps, phases and notes keep holds all along a run.
* `Engine.run_crew` — at the end of a run that gets to its triggers every job was begun once and has
  ended, and the results that were taken in are those of the jobs.
* `Engine.run_results` — the outcome of a run, its calls and its notes, told by these results.
-/

set_option autoImplicit false

namespace ProcessorBench

open Relation (ReflTransGen)

variable {σ δ : Type}

namespace Crew

/-- Something that a thread does: it begins a job, if it may, or goes on with one. -/
inductive Step (p : Plant σ δ) (threads : Nat) (c : Crew σ δ) : Crew σ δ → Prop where
  | start (i : Nat) (posted : c.jobs[i]? = some .posted) (free : c.mayBegin threads i = true) :
      Step p threads c (c.start p i)
  | proceed (i : Nat) (rest : Procedure σ δ) (working : c.jobs[i]? = some (.working rest)) :
      Step p threads c (c.proceed p i rest)

/-- What threads do in a row. -/
abbrev Steps (p : Plant σ δ) (threads : Nat) : Crew σ δ → Crew σ δ → Prop :=
  ReflTransGen (Step p threads)

variable {p : Plant σ δ} {threads : Nat} {c c' : Crew σ δ} {i : Nat}

theorem move_steps (c : Crew σ δ) (i : Nat) : Steps p threads c (c.move p threads i) := by
  unfold move
  split
  · rename_i hposted
    split
    · rename_i hfree
      exact .single (.start i hposted hfree)
    · exact .refl
  · rename_i rest hworking
    exact .single (.proceed i rest hworking)
  · exact .refl

theorem foldl_move_steps (c : Crew σ δ) (turns : List Nat) :
    Steps p threads c (turns.foldl (move p threads) c) := by
  induction turns generalizing c with
  | nil => exact .refl
  | cons i rest ih => exact (move_steps c i).trans (ih _)

theorem Step.exists_move (h : Step p threads c c') : ∃ i, c.move p threads i = c' := by
  cases h with
  | start i posted free =>
    refine ⟨i, ?_⟩
    unfold move
    rw [posted]
    exact if_pos free
  | proceed i rest working =>
    refine ⟨i, ?_⟩
    unfold move
    rw [working]

/-- **Turns tell all that threads may do**: each order of their steps is that of some turns. -/
theorem steps_iff :
    Steps p threads c c' ↔ ∃ turns : List Nat, turns.foldl (move p threads) c = c' := by
  constructor
  · intro h
    induction h with
    | refl => exact ⟨[], rfl⟩
    | tail _ hstep ih =>
      obtain ⟨turns, hturns⟩ := ih
      obtain ⟨i, hmove⟩ := hstep.exists_move
      refine ⟨turns ++ [i], ?_⟩
      rw [List.foldl_append, hturns]
      exact hmove
  · rintro ⟨turns, rfl⟩
    exact foldl_move_steps c turns

theorem lt_length_of_job {job : Job σ δ} (h : c.jobs[i]? = some job) : i < c.jobs.length :=
  (List.getElem?_eq_some_iff.1 h).1

/-- A job that is done to the end has the result that is handed over. -/
theorem complete_steps (p : Plant σ δ) (threads : Nat) {rest : Procedure σ δ}
    (h : c.jobs[i]? = some (.working rest)) :
    Steps p threads c (complete p i rest c).2 ∧
      (complete p i rest c).2.jobs[i]? = some (.ended (complete p i rest c).1) := by
  induction rest generalizing c with
  | done result =>
    exact ⟨.single (.proceed i _ h), List.getElem?_set_self (lt_length_of_job h)⟩
  | step deed next ih =>
    have hnext : (c.proceed p i (.step deed next)).jobs[i]? = some (.working (next c.plant)) :=
      List.getElem?_set_self (lt_length_of_job h)
    obtain ⟨hsteps, hended⟩ := ih c.plant hnext
    exact ⟨.head (.proceed i _ h) hsteps, hended⟩

/-! ## The order of the jobs -/

/-- Jobs that were posted later are not begun before those that were posted earlier, and no more of
them are worked on than there are threads. -/
structure Orderly (threads : Nat) (c : Crew σ δ) : Prop where
  inTurn : ∀ i j : Nat, i < j → c.jobs[i]? = some .posted → ∀ job, c.jobs[j]? = some job →
    job = .posted
  busy : c.busy ≤ threads

theorem length_step (h : Step p threads c c') : c'.jobs.length = c.jobs.length := by
  cases h with
  | start i => exact List.length_set
  | proceed i rest =>
    cases rest with
    | done result => exact List.length_set
    | step deed next => exact List.length_set

theorem length_steps (h : Steps p threads c c') : c'.jobs.length = c.jobs.length := by
  induction h with
  | refl => rfl
  | tail _ hstep ih => rw [length_step hstep, ih]

/-- How many jobs were begun. -/
def begun (c : Crew σ δ) : Nat := c.jobs.countP fun job => !job.isPosted

/-- One job is another one afterwards: it was begun, which counts, or went on. -/
structure Change (threads : Nat) (c c' : Crew σ δ) (i : Nat) (old job : Job σ δ) : Prop where
  before : c.jobs[i]? = some old
  after : c'.jobs = c.jobs.set i job
  begun : job.isPosted = false
  cause : (old = .posted ∧ c.mayBegin threads i = true ∧ c'.invocations = c.invocations + 1) ∨
    (∃ rest, old = .working rest) ∧ c'.invocations = c.invocations

theorem Step.change (h : Step p threads c c') : ∃ i old job, Change threads c c' i old job := by
  cases h with
  | start i posted free => exact ⟨i, _, _, posted, rfl, rfl, .inl ⟨rfl, free, rfl⟩⟩
  | proceed i rest working =>
    cases rest with
    | done result => exact ⟨i, _, _, working, rfl, rfl, .inr ⟨⟨_, rfl⟩, rfl⟩⟩
    | step deed next => exact ⟨i, _, _, working, rfl, rfl, .inr ⟨⟨_, rfl⟩, rfl⟩⟩

/-- A job that has ended is left alone. -/
theorem Step.ended {j : Nat} {r : Except Error Unit} (h : Step p threads c c')
    (hj : c.jobs[j]? = some (.ended r)) : c'.jobs[j]? = some (.ended r) := by
  obtain ⟨i, old, job, hchange⟩ := h.change
  have hne : i ≠ j := by
    rintro rfl
    rw [hchange.before, Option.some.injEq] at hj
    obtain ⟨rfl, -⟩ | ⟨⟨rest, rfl⟩, -⟩ := hchange.cause <;> cases hj
  rw [hchange.after, List.getElem?_set_ne hne, hj]

theorem Steps.ended {j : Nat} {r : Except Error Unit} (h : Steps p threads c c')
    (hj : c.jobs[j]? = some (.ended r)) : c'.jobs[j]? = some (.ended r) := by
  induction h with
  | refl => exact hj
  | tail _ hstep ih => exact hstep.ended ih

theorem mayBegin_iff : c.mayBegin threads i = true ↔
    c.busy < threads ∧ ∀ j < i, c.jobs[j]? ≠ some .posted := by
  unfold mayBegin
  rw [Bool.and_eq_true, decide_eq_true_eq, List.all_eq_true]
  refine and_congr_right fun _ => ⟨fun h j hj hposted => ?_, fun h job hjob => ?_⟩
  · have hmem : Job.posted ∈ c.jobs.take i :=
      List.mem_of_getElem? ((List.getElem?_take_of_lt hj).trans hposted)
    exact absurd (h _ hmem) Bool.false_ne_true
  · obtain ⟨j, hj, hget⟩ := List.mem_iff_getElem.1 hjob
    have hlt : j < i := Nat.lt_of_lt_of_le hj (List.length_take_le i _)
    have hposted : c.jobs[j]? = some job := by
      rw [← List.getElem?_take_of_lt hlt, List.getElem?_eq_getElem hj, hget]
    cases job with
    | posted => exact absurd hposted (h j hlt)
    | working | ended => rfl

/-- A step begins one job more, if any, and counts it. -/
theorem Change.begun_eq {old job : Job σ δ} (h : Change threads c c' i old job) :
    (old = .posted ∧ c'.begun = c.begun + 1) ∨ old ≠ .posted ∧ c'.begun = c.begun := by
  have hi := lt_length_of_job h.before
  have hget : c.jobs[i] = old := (List.getElem?_eq_some_iff.1 h.before).2
  have hcount : c'.begun = c.begun - (if !old.isPosted then 1 else 0) + 1 := by
    unfold Crew.begun
    rw [h.after, List.countP_set hi, hget, h.begun]
    rfl
  obtain ⟨rfl, -⟩ | ⟨⟨rest, rfl⟩, -⟩ := h.cause
  · exact .inl ⟨rfl, hcount⟩
  · have hpos : 1 ≤ c.begun :=
      List.one_le_countP_iff.2 ⟨_, List.mem_of_getElem? h.before, rfl⟩
    refine .inr ⟨nofun, hcount.trans ?_⟩
    show c.begun - 1 + 1 = c.begun
    omega

theorem Orderly.step (ho : c.Orderly threads) (h : Step p threads c c') : c'.Orderly threads := by
  obtain ⟨i, old, job, hchange⟩ := h.change
  have hi := lt_length_of_job hchange.before
  refine ⟨fun a b hab ha job' hb => ?_, ?_⟩
  · rw [hchange.after] at ha hb
    have hne : i ≠ a := by
      rintro rfl
      rw [List.getElem?_set_self hi, Option.some.injEq] at ha
      have hbegun := hchange.begun
      rw [ha] at hbegun
      cases hbegun
    rw [List.getElem?_set_ne hne] at ha
    by_cases hib : i = b
    · -- the job itself would have been begun before one that was posted earlier
      subst hib
      obtain ⟨-, hfree, -⟩ | ⟨⟨rest, hold⟩, -⟩ := hchange.cause
      · exact absurd ha ((mayBegin_iff.1 hfree).2 a hab)
      · rw [ho.inTurn a i hab ha old hchange.before] at hold
        cases hold
    · rw [List.getElem?_set_ne hib] at hb
      exact ho.inTurn a b hab ha job' hb
  · have hget : c.jobs[i] = old := (List.getElem?_eq_some_iff.1 hchange.before).2
    have hcount : c'.busy = c.busy - (if old.isWorking then 1 else 0) +
        if job.isWorking then 1 else 0 := by
      unfold Crew.busy
      rw [hchange.after, List.countP_set hi, hget]
    have hone : (if job.isWorking then 1 else 0) ≤ 1 := by split <;> simp
    have hbusy := ho.busy
    obtain ⟨rfl, hfree, -⟩ | ⟨⟨rest, rfl⟩, -⟩ := hchange.cause
    · have hfree := (mayBegin_iff.1 hfree).1
      have hidle : (if (Job.posted : Job σ δ).isWorking then 1 else 0) = 0 := rfl
      omega
    · have hpos : 1 ≤ c.busy :=
        List.one_le_countP_iff.2 ⟨_, List.mem_of_getElem? hchange.before, rfl⟩
      have hworks : (if (Job.working rest).isWorking then 1 else 0) = 1 := rfl
      omega

theorem Orderly.steps (ho : c.Orderly threads) (h : Steps p threads c c') :
    c'.Orderly threads := by
  induction h with
  | refl => exact ho
  | tail _ hstep ih => exact ih.step hstep

/-- If all jobs that were posted before it have ended, then a job that was not begun yet may be. -/
theorem Orderly.mayBegin (ho : c.Orderly threads) (hthreads : 1 ≤ threads)
    (hended : ∀ j < i, ∃ r, c.jobs[j]? = some (.ended r)) (hposted : c.jobs[i]? = some .posted) :
    c.mayBegin threads i = true := by
  refine mayBegin_iff.2 ⟨?_, fun j hj hp => ?_⟩
  · have hidle : c.busy = 0 := by
      refine List.countP_eq_zero.2 fun job hjob => ?_
      obtain ⟨j, hj⟩ := List.mem_iff_getElem?.1 hjob
      rcases Nat.lt_trichotomy j i with hlt | rfl | hgt
      · obtain ⟨r, hr⟩ := hended j hlt
        obtain rfl := Option.some.inj (hj.symm.trans hr)
        exact Bool.false_ne_true
      · obtain rfl := Option.some.inj (hj.symm.trans hposted)
        exact Bool.false_ne_true
      · rw [ho.inTurn i j hgt hposted job hj]
        exact Bool.false_ne_true
    omega
  · obtain ⟨r, hr⟩ := hended j hj
    rw [hp] at hr
    cases hr

/-- A single thread is at one job. -/
theorem Orderly.alone (ho : c.Orderly 1) {j : Nat} {rest rest' : Procedure σ δ}
    (hi : c.jobs[i]? = some (.working rest)) (hj : c.jobs[j]? = some (.working rest')) : i = j := by
  refine Decidable.byContradiction fun hne => ?_
  have hlt := lt_length_of_job hi
  -- without the one job there is still the other
  have hother : 1 ≤ (c.jobs.set i .posted).countP Job.isWorking :=
    List.one_le_countP_iff.2
      ⟨_, List.mem_of_getElem? ((List.getElem?_set_ne hne).trans hj), rfl⟩
  have hworks : (if c.jobs[i].isWorking then 1 else 0) = 1 := by
    rw [(List.getElem?_eq_some_iff.1 hi).2]
    rfl
  have hidle : (if (Job.posted : Job σ δ).isWorking then 1 else 0) = 0 := rfl
  have hbusy := ho.busy
  unfold Crew.busy at hbusy
  rw [List.countP_set hlt, hworks, hidle] at hother
  omega

/-- **Whoever waits for a job gets its result**, and meanwhile threads only take steps. -/
theorem await_steps (turns : Turns) (ho : c.Orderly threads) (hthreads : 1 ≤ threads)
    (hi : i < c.jobs.length) (hended : ∀ j < i, ∃ r, c.jobs[j]? = some (.ended r)) :
    Steps p threads c (await p threads turns i c).2 ∧
      (await p threads turns i c).2.jobs[i]? = some (.ended (await p threads turns i c).1) := by
  have hmoved : Steps p threads c ((turns i).foldl (move p threads) c) := foldl_move_steps c _
  have ho' := ho.steps hmoved
  have hi' := length_steps hmoved ▸ hi
  have hended' : ∀ j < i, ∃ r, ((turns i).foldl (move p threads) c).jobs[j]? = some (.ended r) :=
    fun j hj => (hended j hj).imp fun _ hr => hmoved.ended hr
  unfold await
  dsimp only
  generalize (turns i).foldl (move p threads) c = d at hmoved ho' hi' hended' ⊢
  cases hjob : d.jobs[i]? with
  | none => exact absurd (List.getElem?_eq_none_iff.1 hjob) (Nat.not_le.2 hi')
  | some job =>
    cases job with
    | ended r => exact ⟨hmoved, hjob⟩
    | working rest =>
      obtain ⟨hsteps, hresult⟩ := complete_steps p threads hjob
      exact ⟨hmoved.trans hsteps, hresult⟩
    | posted =>
      have hbegun : (d.start p i).jobs[i]? = some (.working (p.trigger d.plant)) :=
        List.getElem?_set_self hi'
      obtain ⟨hsteps, hresult⟩ := complete_steps p threads hbegun
      exact ⟨hmoved.trans (.head (.start i hjob (ho'.mayBegin hthreads hended' hjob)) hsteps),
        hresult⟩

/-- However threads end the job, it may be what happens while its result is waited for. -/
theorem exists_await {r : Except Error Unit} (h : Steps p threads c c')
    (hr : c'.jobs[i]? = some (.ended r)) : ∃ turns, await p threads turns i c = (r, c') := by
  obtain ⟨turns, hturns⟩ := steps_iff.1 h
  refine ⟨fun _ => turns, ?_⟩
  unfold await
  dsimp only
  rw [hturns, hr]

/-! ## Whole runs -/

open Controls (Note Call)

/-- What threads, phases and notes keep, of what was noted and of the crew. -/
structure Kept (p : Plant σ δ) (threads : Nat) (J : List Note → Crew σ δ → Prop) : Prop where
  step : ∀ {notes c c'}, Step p threads c c' → J notes c → J notes c'
  fire : ∀ {notes c} (phase : Phase), J notes c → J notes { c with plant := (p.fire phase c.plant).2 }
  note : ∀ {notes c} (level : Log.Level) (text : Text), J notes c →
    J (notes ++ [(level, text)]) { c with plant := p.note level text c.plant }

theorem Kept.steps {J : List Note → Crew σ δ → Prop} (hJ : Kept p threads J)
    (h : Steps p threads c c') {notes : List Note} (hc : J notes c) : J notes c' := by
  induction h with
  | refl => exact hc
  | tail _ hstep ih => exact hJ.step hstep ih

/-- What is true of the plant alone is kept if nothing that is done to the plant breaks it. -/
theorem Kept.of_plant {I : σ → Prop} (heffect : ∀ deed s, I s → I (p.effect deed s))
    (hfire : ∀ phase s, I s → I (p.fire phase s).2)
    (hnote : ∀ level text s, I s → I (p.note level text s)) :
    Kept p threads fun _ c => I c.plant where
  step hstep h := by
    cases hstep with
    | start => exact h
    | proceed i rest =>
      cases rest with
      | done => exact h
      | step deed next => exact heffect deed _ h
  fire phase h := hfire phase _ h
  note level text h := hnote level text _ h

/-- Where the crew of a run stands that made these calls: jobs are done in their order, those that
were begun count, and the results that came in are those of the jobs. -/
structure Told (threads n : Nat) (first : UInt64) (calls : List Call) (c : Crew σ δ) : Prop where
  orderly : c.Orderly threads
  length : c.jobs.length = n
  counted : c.invocations = first + .ofNat c.begun
  results : ∀ (i : Nat) r, (Controls.results calls)[i]? = some r → c.jobs[i]? = some (.ended r)

variable {n : Nat} {first : UInt64} {calls calls' : List Call}

theorem Told.step (h : c.Told threads n first calls) (hstep : Step p threads c c') :
    c'.Told threads n first calls where
  orderly := h.orderly.step hstep
  length := (length_step hstep).trans h.length
  counted := by
    obtain ⟨i, old, job, hchange⟩ := hstep.change
    have hcounted := h.counted
    obtain ⟨rfl, hmore⟩ | ⟨hold, hsame⟩ := hchange.begun_eq
    · obtain ⟨-, -, hinvocations⟩ | ⟨⟨rest, hrest⟩, -⟩ := hchange.cause
      · rw [hinvocations, hcounted, hmore, Supply.next_succ]
      · cases hrest
    · obtain ⟨hposted, -⟩ | ⟨-, hinvocations⟩ := hchange.cause
      · exact absurd hposted hold
      · rw [hinvocations, hcounted, hsame]
  results j r hj := hstep.ended (h.results j r hj)

theorem Told.steps (h : c.Told threads n first calls) (hsteps : Steps p threads c c') :
    c'.Told threads n first calls := by
  induction hsteps with
  | refl => exact h
  | tail _ hstep ih => exact ih.step hstep

/-- The plant has no part in it, and neither have calls that are no results. -/
theorem Told.aside (h : c.Told threads n first calls) (plant : σ)
    (hresults : Controls.results calls' = Controls.results calls) :
    ({ c with plant } : Crew σ δ).Told threads n first calls' where
  orderly := ⟨h.orderly.inTurn, h.orderly.busy⟩
  length := h.length
  counted := h.counted
  results j r hj := h.results j r (hresults ▸ hj)

theorem Told.await (h : c.Told threads n first calls) (hthreads : 1 ≤ threads) (turns : Turns)
    (hi : i = (Controls.results calls).length) (hn : i < n) :
    Steps p threads c (await p threads turns i c).2 ∧
      (await p threads turns i c).2.Told threads n first
        (calls ++ [.trigger (await p threads turns i c).1]) := by
  have hended : ∀ j < i, ∃ r, c.jobs[j]? = some (.ended r) := fun j hj =>
    ⟨_, h.results j _ (List.getElem?_eq_getElem (hi ▸ hj))⟩
  obtain ⟨hsteps, hresult⟩ :=
    await_steps (p := p) turns h.orderly hthreads (h.length.symm ▸ hn) hended
  have hold := h.steps hsteps
  refine ⟨hsteps, hold.orderly, hold.length, hold.counted, fun j r hj => ?_⟩
  rw [Controls.results_append] at hj
  change (_ ++ [_])[j]? = some r at hj
  rcases Nat.lt_or_ge j i with hlt | hge
  · rw [List.getElem?_append_left (hi ▸ hlt)] at hj
    exact hold.results j r hj
  · rw [List.getElem?_append_right (hi ▸ hge), List.getElem?_singleton] at hj
    split at hj
    · obtain rfl : j = i := by omega
      rw [← Option.some.inj hj]
      exact hresult
    · cases hj

/-- Once all results came in, every job has ended, each with its result. -/
theorem Told.jobs_eq (h : c.Told threads n first calls)
    (hresults : (Controls.results calls).length = n) :
    c.jobs = (Controls.results calls).map .ended := by
  refine List.ext_getElem? fun i => ?_
  rw [List.getElem?_map]
  cases hr : (Controls.results calls)[i]? with
  | none =>
    have hle := List.getElem?_eq_none_iff.1 hr
    rw [hresults, ← h.length] at hle
    exact List.getElem?_eq_none hle
  | some r => exact h.results i r hr

/-- Once all results came in, every job was begun. -/
theorem Told.begun_eq (h : c.Told threads n first calls)
    (hresults : (Controls.results calls).length = n) : c.begun = n := by
  unfold begun
  rw [h.jobs_eq hresults, List.countP_map, ← hresults]
  exact List.countP_eq_length.2 fun _ _ => rfl

end Crew

namespace Engine

open Controls Crew

variable {e : Engine} {p : Plant σ δ} {options : RunOptions} {turns : Turns} {s : σ}

/-- The calls that a run makes. -/
def calls (e : Engine) (p : Plant σ δ) (options : RunOptions) (turns : Turns) (s : σ) : List Call :=
  (drive (e.controls p turns).recorded e.threads options (e.crew options s, [])).2.2

/-- How the triggers of a run ended, in their order. -/
def results (e : Engine) (p : Plant σ δ) (options : RunOptions) (turns : Turns) (s : σ) :
    List (Except Error Unit) :=
  Controls.results (e.calls p options turns s)

theorem one_le_threads (e : Engine) : 1 ≤ e.threads.toNat := by
  have hmanned := e.manned
  omega

theorem crew_told (e : Engine) (options : RunOptions) (s : σ) :
    (e.crew options s : Crew σ δ).Told e.threads.toNat options.iterations.toNat e.invocations
      [] := by
  have hposted : ∀ job ∈ (e.crew options s : Crew σ δ).jobs, job = .posted :=
    fun job hjob => List.eq_of_mem_replicate hjob
  have hbegun : (e.crew options s : Crew σ δ).begun = 0 :=
    List.countP_eq_zero.2 fun job hjob => by
      rw [hposted job hjob]
      exact Bool.false_ne_true
  have hbusy : (e.crew options s : Crew σ δ).busy = 0 :=
    List.countP_eq_zero.2 fun job hjob => by
      rw [hposted job hjob]
      exact Bool.false_ne_true
  refine ⟨⟨fun _ j _ _ job hj => hposted job (List.mem_of_getElem? hj), ?_⟩, List.length_replicate,
    ?_, nofun⟩
  · rw [hbusy]
    exact Nat.zero_le _
  · rw [hbegun]
    exact (UInt64.add_zero _).symm

theorem controls_keeps {J : List Note → Crew σ δ → Prop} (hJ : Kept p e.threads.toNat J)
    (turns : Turns) (n : Nat) : (e.controls p turns).Keeps n fun notes calls c =>
      c.Told e.threads.toNat n e.invocations calls ∧ J notes c where
  await hi hn h := by
    obtain ⟨hsteps, htold⟩ := h.1.await (p := p) e.one_le_threads turns hi hn
    exact ⟨htold, hJ.steps hsteps h.2⟩
  fire phase h := by
    refine ⟨h.1.aside _ ?_, hJ.fire phase h.2⟩
    rw [results_append]
    exact List.append_nil _
  note level text h := ⟨h.1.aside _ rfl, hJ.note level text h.2⟩
  invocations _ _ _ := rfl

/-- What is noted in a run. -/
def notes (e : Engine) (p : Plant σ δ) (options : RunOptions) (turns : Turns) (s : σ) : List Note :=
  (drive (e.controls p turns).noted e.threads options (e.crew options s, [])).2.2

/-- The crew as a run leaves it. -/
def after (e : Engine) (p : Plant σ δ) (options : RunOptions) (turns : Turns) (s : σ) : Crew σ δ :=
  (drive (e.controls p turns) e.threads options (e.crew options s)).2

theorem run_of_lt (e : Engine) (p : Plant σ δ) (turns : Turns) (s : σ)
    (h : options.iterations < 1) :
    e.run p options turns s =
        (.error (.configuration (.iterations options.iterations)), e, s) ∧
      e.calls p options turns s = [] ∧ e.notes p options turns s = [] ∧
      e.after p options turns s = e.crew options s := by
  unfold run calls notes after
  rw [drive_of_lt h, drive_of_lt h, drive_of_lt h]
  exact ⟨rfl, rfl, rfl, rfl⟩

theorem run_eq (e : Engine) (p : Plant σ δ) (options : RunOptions) (turns : Turns) (s : σ) :
    e.run p options turns s =
      ((drive (e.controls p turns) e.threads options (e.crew options s)).1,
        { e with invocations := (e.after p options turns s).invocations },
        (e.after p options turns s).plant) := rfl

/-- **What a run with at least one iteration may turn out to be.**  If the plant does not take being
scheduled, nothing is triggered.  Else there is a result for each iteration, all of them are counted
as triggers, and the jobs of the crew have ended with these results.  Either way the run keeps what
threads, phases and notes keep. -/
theorem run_crew {J : List Note → Crew σ δ → Prop} (hJ : Kept p e.threads.toNat J)
    (options : RunOptions) (turns : Turns) (s : σ) (hs : J [] (e.crew options s)) (h : 1 ≤ options.iterations) :
    J (e.notes p options turns s) (e.after p options turns s) ∧
    ((options.schedule = true ∧ ∃ error,
      e.run p options turns s = (.error error, e,
        (p.fire .scheduled (p.note .info (openingNote e.threads options).2 s)).2) ∧
      e.calls p options turns s = [.fire .scheduled (.error error)] ∧
      e.notes p options turns s = [openingNote e.threads options]) ∨
    ∃ triggers unscheduled stopped, triggers.length = options.iterations.toNat ∧
      e.run p options turns s = (verdict options triggers unscheduled stopped,
        { e with invocations := e.invocations + .ofNat options.iterations.toNat },
        (e.after p options turns s).plant) ∧
      e.calls p options turns s = (if options.schedule then [.fire .scheduled (.ok ())] else []) ++
        course unscheduled triggers ++ ending options unscheduled stopped ∧
      e.notes p options turns s = [openingNote e.threads options] ++
        (failed triggers).map failureNote ++ closing options (failed triggers) unscheduled stopped
          (e.invocations + .ofNat options.iterations.toNat) ∧
      (e.after p options turns s).Told e.threads.toNat options.iterations.toNat e.invocations
        (e.calls p options turns s)) := by
  obtain ⟨⟨htold, hkept⟩, hcases⟩ := drive_cases
    (controls_keeps hJ turns options.iterations.toNat) e.threads
    ⟨crew_told e options s, hs⟩ h
  refine ⟨hkept, ?_⟩
  change (e.after p options turns s).Told _ _ _ (e.calls p options turns s) at htold
  obtain ⟨hschedule, error, hfinal, hcalls, hnotes⟩ | ⟨triggers, unscheduled, stopped, hlength,
    hverdict, hcalls, hnotes⟩ := hcases
  · refine .inl ⟨hschedule, error, ?_, hcalls, hnotes⟩
    rw [run_eq]
    unfold after
    rw [hfinal]
    rfl
  · change e.calls p options turns s = _ at hcalls
    have hcounted := htold.counted
    rw [htold.begun_eq ((congrArg List.length (results_of_calls hcalls)).trans hlength)] at hcounted
    refine .inr ⟨triggers, unscheduled, stopped, hlength, ?_, hcalls, ?_, htold⟩
    · rw [run_eq, hverdict, hcounted]
    · rw [← hcounted]
      exact hnotes

/-- **What threads, phases and notes keep holds of every run.** -/
theorem run_keeps {J : List Note → Crew σ δ → Prop} (hJ : Kept p e.threads.toNat J)
    (options : RunOptions) (turns : Turns) (s : σ) (hs : J [] (e.crew options s)) :
    J (e.notes p options turns s) (e.after p options turns s) := by
  by_cases h : options.iterations < 1
  · obtain ⟨-, -, hnotes, hafter⟩ := run_of_lt e p turns s h
    rw [hnotes, hafter]
    exact hs
  · exact (run_crew hJ options turns s hs (by omega)).1

/-- What the answers of the plant to phases have in common is true of all calls of a run. -/
theorem calls_fires {J : List Note → Crew σ δ → Prop} (hJ : Kept p e.threads.toNat J)
    (hs : J [] (e.crew options s)) {Q : Phase → Except Error Unit → Prop}
    (hQ : ∀ {notes c} (phase : Phase), J notes c → Q phase (p.fire phase c.plant).1) :
    ∀ phase result, .fire phase result ∈ e.calls p options turns s → Q phase result := by
  by_cases h : options.iterations < 1
  · obtain ⟨-, hcalls, -⟩ := run_of_lt e p turns s h
    rw [hcalls]
    nofun
  · have hkeeps := (controls_keeps hJ turns options.iterations.toNat).fires
      fun phase hc => hQ phase hc.2
    exact (drive_cases hkeeps e.threads ⟨⟨crew_told e options s, hs⟩, nofun⟩ (by omega)).1.2

/-- **The results of a run.**  Without iterations, or if the plant does not take being scheduled,
the run fails and triggers nothing.  Else there is a result for each iteration, the outcome is the
verdict on them, and each trigger was counted. -/
theorem run_results (e : Engine) (p : Plant σ δ) (options : RunOptions) (turns : Turns) (s : σ) :
    ((options.iterations < 1 ∨
        ∃ error, e.calls p options turns s = [.fire .scheduled (.error error)]) ∧
      e.results p options turns s = [] ∧ (e.run p options turns s).1.isOk = false) ∨
    1 ≤ options.iterations ∧
      (¬∃ error, e.calls p options turns s = [.fire .scheduled (.error error)]) ∧
      (e.results p options turns s).length = options.iterations.toNat ∧
      ∃ unscheduled stopped,
        e.calls p options turns s = (if options.schedule then [.fire .scheduled (.ok ())] else []) ++
          course unscheduled (e.results p options turns s) ++
          ending options unscheduled stopped ∧
        e.run p options turns s =
          (verdict options (e.results p options turns s) unscheduled stopped,
            { e with invocations := e.invocations + .ofNat options.iterations.toNat },
            (e.after p options turns s).plant) ∧
        e.notes p options turns s = [openingNote e.threads options] ++
          (failed (e.results p options turns s)).map failureNote ++
          closing options (failed (e.results p options turns s)) unscheduled stopped
            (e.invocations + .ofNat options.iterations.toNat) := by
  have hanything : Kept p e.threads.toNat fun _ _ => True :=
    ⟨fun _ _ => trivial, fun _ _ => trivial, fun _ _ _ => trivial⟩
  by_cases hlt : options.iterations < 1
  · obtain ⟨hrun, hcalls, -⟩ := run_of_lt e p turns s hlt
    refine .inl ⟨.inl hlt, ?_, ?_⟩
    · unfold results
      rw [hcalls]
      rfl
    · rw [hrun]
      rfl
  · have hle : 1 ≤ options.iterations := by omega
    obtain ⟨-, ⟨-, error, hrun, hcalls, -⟩ | ⟨triggers, unscheduled, stopped, hlength, hrun, hcalls,
      hnotes, -⟩⟩ := run_crew hanything options turns s trivial hle
    · refine .inl ⟨.inr ⟨error, hcalls⟩, ?_, ?_⟩
      · unfold results
        rw [hcalls]
        rfl
      · rw [hrun]
        rfl
    · have hresults : e.results p options turns s = triggers := results_of_calls hcalls
      refine .inr ⟨hle, ?_, ?_, unscheduled, stopped, ?_, ?_, ?_⟩
      · rintro ⟨error, hfailed⟩
        have hnone : e.results p options turns s = [] := by
          unfold results
          rw [hfailed]
          rfl
        rw [← hresults, hnone] at hlength
        simp only [List.length_nil] at hlength
        omega
      · rw [hresults, hlength]
      · rw [hresults, hcalls]
      · rw [hresults, hrun]
      · rw [hresults, hnotes]

end Engine

end ProcessorBench
