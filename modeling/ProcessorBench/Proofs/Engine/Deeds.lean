import ProcessorBench.Proofs.Engine.Crew

/-!
# The deeds of a run

Which deeds are done in a run, and in which order, is told by the turns of its jobs.
`Plant.logged` writes them down beside the state of the plant.

* `Crew.Shadows` — a crew at a plant whose deeds are written down, and one at the plant itself, stand
  at the same place; what they do next keeps it so.
* `Engine.deeds` — the deeds of a run, oldest first; the run itself is the same
  (`Engine.run_logged`).
* `Engine.run_deeds` — what each deed, phase and note keeps of deeds and state holds of every run.
-/

set_option autoImplicit false

namespace ProcessorBench

variable {σ τ δ : Type}

/-- The plant, with the deeds that are done to it, oldest first. -/
def Plant.logged (p : Plant σ δ) : Plant (σ × List δ) δ where
  trigger s := (p.trigger s.1).within Prod.fst
  effect deed s := (p.effect deed s.1, s.2 ++ [deed])
  fire phase s := ((p.fire phase s.1).1, (p.fire phase s.1).2, s.2)
  note level text s := (p.note level text s.1, s.2)

namespace Job

/-- The job, done to a part of a state. -/
def within (part : τ → σ) : Job σ δ → Job τ δ
  | posted => posted
  | working rest => working (rest.within part)
  | ended result => ended result

theorem isPosted_within (part : τ → σ) (job : Job σ δ) :
    (job.within part).isPosted = job.isPosted := by
  cases job <;> rfl

theorem isWorking_within (part : τ → σ) (job : Job σ δ) :
    (job.within part).isWorking = job.isWorking := by
  cases job <;> rfl

end Job

namespace Crew

variable {p : Plant σ δ} {threads : Nat} {c : Crew σ δ} {d : Crew (σ × List δ) δ} {i : Nat}

/-- The crew stands where the other one does, and its deeds are written down. -/
structure Shadows (d : Crew (σ × List δ) δ) (c : Crew σ δ) : Prop where
  plant : d.plant.1 = c.plant
  jobs : d.jobs = c.jobs.map (Job.within Prod.fst)
  invocations : d.invocations = c.invocations

theorem Shadows.mayBegin (h : d.Shadows c) : d.mayBegin threads i = c.mayBegin threads i := by
  have hbusy : d.busy = c.busy := by
    unfold Crew.busy
    rw [h.jobs, List.countP_map]
    exact List.countP_congr fun job _ => by rw [Function.comp_apply, Job.isWorking_within]
  unfold Crew.mayBegin
  rw [hbusy, h.jobs, ← List.map_take, List.all_map]
  congr 2
  funext job
  rw [Function.comp_apply, Job.isPosted_within]

theorem Shadows.start (h : d.Shadows c) : (d.start p.logged i).Shadows (c.start p i) where
  plant := h.plant
  jobs := by
    unfold Crew.start
    rw [h.jobs, List.map_set, ← h.plant]
    rfl
  invocations := congrArg (· + 1) h.invocations

theorem Shadows.proceed (h : d.Shadows c) (rest : Procedure σ δ) :
    (d.proceed p.logged i (rest.within Prod.fst)).Shadows (c.proceed p i rest) := by
  cases rest with
  | done result =>
    refine ⟨h.plant, ?_, h.invocations⟩
    show d.jobs.set i _ = (c.jobs.set i _).map _
    rw [h.jobs, List.map_set]
    rfl
  | step deed next =>
    refine ⟨congrArg (p.effect deed) h.plant, ?_, h.invocations⟩
    show d.jobs.set i (.working ((next d.plant.1).within Prod.fst)) = (c.jobs.set i _).map _
    rw [h.jobs, List.map_set, h.plant]
    rfl

theorem Shadows.move (h : d.Shadows c) :
    (d.move p.logged threads i).Shadows (c.move p threads i) := by
  unfold Crew.move
  rw [h.jobs, List.getElem?_map]
  cases c.jobs[i]? with
  | none => exact h
  | some job =>
    cases job with
    | posted =>
      show (if d.mayBegin threads i then d.start p.logged i else d).Shadows
        (if c.mayBegin threads i then c.start p i else c)
      rw [h.mayBegin]
      split
      · exact h.start
      · exact h
    | working rest => exact h.proceed rest
    | ended result => exact h

theorem Shadows.complete {rest : Procedure σ δ} (h : d.Shadows c) :
    Controls.Agree Shadows (complete p.logged i (rest.within Prod.fst) d)
      (complete p i rest c) := by
  induction rest generalizing c d with
  | done result => exact ⟨rfl, h.proceed (p := p) (.done result)⟩
  | step deed next ih =>
    have hnext := ih c.plant (h.proceed (p := p) (i := i) (.step deed next))
    show Controls.Agree Shadows (Crew.complete p.logged i ((next d.plant.1).within Prod.fst) _) _
    rw [h.plant]
    exact hnext

theorem Shadows.await (h : d.Shadows c) (turns : Turns) :
    Controls.Agree Shadows (await p.logged threads turns i d) (await p threads turns i c) := by
  have hmoved : ((turns i).foldl (Crew.move p.logged threads) d).Shadows
      ((turns i).foldl (Crew.move p threads) c) := by
    induction turns i generalizing c d with
    | nil => exact h
    | cons j rest ih => exact ih h.move
  unfold Crew.await
  dsimp only
  generalize (turns i).foldl (Crew.move p.logged threads) d = d at hmoved
  generalize (turns i).foldl (Crew.move p threads) c = c at hmoved
  rw [hmoved.jobs, List.getElem?_map]
  have hbegun : Controls.Agree Shadows
      (Crew.complete p.logged i (p.logged.trigger d.plant) (d.start p.logged i))
      (Crew.complete p i (p.trigger c.plant) (c.start p i)) := by
    rw [← hmoved.plant]
    exact hmoved.start.complete
  cases c.jobs[i]? with
  | none => exact hbegun
  | some job =>
    cases job with
    | posted => exact hbegun
    | working rest => exact hmoved.complete
    | ended result => exact ⟨rfl, hmoved⟩

/-- The engine cannot tell whether deeds are written down. -/
theorem controls_logged (p : Plant σ δ) (threads : Nat) (turns : Turns) :
    (Crew.controls p.logged threads turns).Simulates (Crew.controls p threads turns) Shadows where
  await _ _ _ h := h.await turns
  fire phase d c h := by
    have hfire : (p.logged.fire phase d.plant) =
        ((p.fire phase c.plant).1, (p.fire phase c.plant).2, d.plant.2) := by
      rw [← h.plant]
      rfl
    refine ⟨congrArg Prod.fst hfire, congrArg (·.2.1) hfire, h.jobs, h.invocations⟩
  note level text d c h := ⟨congrArg (p.note level text) h.plant, h.jobs, h.invocations⟩
  invocations _ _ h := h.invocations

end Crew

namespace Engine

variable {e : Engine} {p : Plant σ δ} {options : RunOptions} {turns : Crew.Turns} {s : σ}

/-- The deeds of a run, oldest first. -/
def deeds (e : Engine) (p : Plant σ δ) (options : RunOptions) (turns : Crew.Turns) (s : σ) :
    List δ :=
  (e.after p.logged options turns (s, [])).plant.2

theorem crew_shadows (e : Engine) (options : RunOptions) (s : σ) :
    (e.crew options (s, []) : Crew (σ × List δ) δ).Shadows (e.crew options s) where
  plant := rfl
  jobs := by
    show List.replicate _ _ = (List.replicate _ _).map _
    rw [List.map_replicate]
    rfl
  invocations := rfl

/-- **A run whose deeds are written down is the run**: it ends the same way, with the same calls, and
leaves the same crew. -/
theorem run_logged (e : Engine) (p : Plant σ δ) (options : RunOptions) (turns : Crew.Turns)
    (s : σ) :
    (e.run p.logged options turns (s, [])).1 = (e.run p options turns s).1 ∧
      e.calls p.logged options turns (s, []) = e.calls p options turns s ∧
      (e.after p.logged options turns (s, [])).Shadows (e.after p options turns s) := by
  have hsimulates := Crew.controls_logged p e.threads.toNat turns
  obtain ⟨houtcome, hafter⟩ :=
    drive_agrees hsimulates e.threads options (crew_shadows e options s)
  obtain ⟨-, -, hcalls⟩ := drive_agrees hsimulates.recorded e.threads options
    (t := (e.crew options (s, []), [])) (s := (e.crew options s, []))
    ⟨crew_shadows e options s, rfl⟩
  exact ⟨houtcome, hcalls, hafter⟩

/-- Without triggers there are no deeds. -/
theorem deeds_of_untriggered (h : options.iterations < 1 ∨
      ∃ error, e.calls p options turns s = [.fire .scheduled (.error error)]) :
    e.deeds p options turns s = [] := by
  have hanything : Crew.Kept p.logged e.threads.toNat fun _ _ => True :=
    ⟨fun _ _ => trivial, fun _ _ => trivial, fun _ _ _ => trivial⟩
  unfold deeds
  by_cases hlt : options.iterations < 1
  · obtain ⟨-, -, -, hafter⟩ :=
      run_of_lt e p.logged turns (s, []) hlt
    rw [hafter]
    rfl
  · obtain ⟨-, ⟨-, error, hrun, -⟩ | ⟨triggers, unscheduled, stopped, hlength, -, hcalls, -⟩⟩ :=
      run_crew hanything options turns (s, []) trivial (by omega)
    · rw [run_eq] at hrun
      exact congrArg (·.2.2.2) hrun
    · obtain ⟨error, hfailed⟩ := h.resolve_left hlt
      have hnone := results_of_calls hcalls
      rw [(run_logged e p options turns s).2.1, hfailed] at hnone
      rw [← hnone] at hlength
      change 0 = _ at hlength
      omega

/-- **What each deed, phase and note keeps** of the deeds so far and the state holds of every
run. -/
theorem run_deeds {I : List δ → σ → Prop} (heffect : ∀ deed deeds s, I deeds s →
      I (deeds ++ [deed]) (p.effect deed s))
    (hfire : ∀ phase deeds s, I deeds s → I deeds (p.fire phase s).2)
    (hnote : ∀ level text deeds s, I deeds s → I deeds (p.note level text s)) (hs : I [] s) :
    I (e.deeds p options turns s) (e.run p options turns s).2.2 := by
  have hkept : Crew.Kept p.logged e.threads.toNat
      fun _ (c : Crew (σ × List δ) δ) => I c.plant.2 c.plant.1 :=
    .of_plant (I := fun s : σ × List δ => I s.2 s.1) (fun deed s h => heffect deed s.2 s.1 h)
      (fun phase s h => hfire phase s.2 s.1 h) fun level text s h => hnote level text s.2 s.1 h
  have hafter := run_keeps (e := e) hkept options turns (s, []) hs
  rw [(run_logged e p options turns s).2.2.plant] at hafter
  exact hafter

end Engine

end ProcessorBench
