import ProcessorBench.Bench.Basic
import ProcessorBench.Proofs.Engine.Deeds
import ProcessorBench.Proofs.Session.History

/-!
# What a run does to the workspace

The triggers of a run work on the workspace of the bench deed by deed, those of several threads in
whatever turns.  Each deed is an event of the workspace, or none, and nothing else in a run has a
part in it.

* `Bench.admitted` — whether a bench may be run as it is configured.
* `Bench.runEvents` — the events of a run, oldest first.
* `Bench.run_events` — the workspace that a run leaves is the one that these events leave.
-/

set_option autoImplicit false

namespace ProcessorBench

open Workspace (Event)

variable {υ : Type}

/-- The event of the workspace that the deed is, if it is one. -/
def Deed.event? : Deed υ → Option Event
  | openSession => some .openSession
  | call n op => some (.call n op)
  | configure _ | touch _ | note _ _ _ | look => none

theorem Deed.effect_workspace (deed : Deed υ) (s : Stage υ) :
    (deed.effect s).workspace = deed.event?.toList.foldl Workspace.handle s.workspace := by
  cases deed <;> rfl

namespace Bench

variable {b : Bench υ}

theorem fire_aside (b : Bench υ) (phase : Phase) :
    (b.fire phase).2.processor = b.processor ∧ (b.fire phase).2.workspace = b.workspace := by
  unfold fire
  split <;> exact ⟨rfl, rfl⟩

/-- The processor may be run as it is configured. -/
def admitted (b : Bench υ) : Bool :=
  match if b.validateOnRun then b.context.validate else .ok [] with
  | .error _ => false
  | .ok verdicts => Verdict.allValid verdicts

theorem run_of_admitted (h : b.admitted = true) (options : RunOptions) (turns : Crew.Turns) :
    (b.run options turns).1 = (b.engine.run plant options turns b).1 ∧
      (b.run options turns).2.processor =
        (b.engine.run plant options turns b).2.2.processor ∧
      (b.run options turns).2.workspace =
        (b.engine.run plant options turns b).2.2.workspace := by
  unfold admitted at h
  unfold run
  generalize (if b.validateOnRun then b.context.validate else .ok []) = checked at h ⊢
  cases checked with
  | error _ => cases h
  | ok verdicts =>
    dsimp only at h ⊢
    rw [if_pos h]
    exact ⟨rfl, rfl, rfl⟩

theorem run_of_not_admitted (h : b.admitted = false) (options : RunOptions)
    (turns : Crew.Turns) :
    (b.run options turns).1.isOk = false ∧ (b.run options turns).2.processor = b.processor ∧
      (b.run options turns).2.workspace = b.workspace := by
  unfold admitted at h
  unfold run
  generalize (if b.validateOnRun then b.context.validate else .ok []) = checked at h ⊢
  cases checked with
  | error _ => exact ⟨rfl, rfl, rfl⟩
  | ok verdicts =>
    dsimp only at h ⊢
    rw [if_neg (ne_true_of_eq_false h)]
    exact ⟨rfl, rfl, rfl⟩

/-- What happens at the workspace in a run, oldest first. -/
def runEvents (b : Bench υ) (options : RunOptions) (turns : Crew.Turns) : List Event :=
  if b.admitted then (b.engine.deeds plant options turns b).filterMap Deed.event? else []

/-- Nothing is queued in a run from outside. -/
theorem not_enqueue_of_mem_runEvents {options : RunOptions} {turns : Crew.Turns} {e : Event}
    (he : e ∈ b.runEvents options turns) (bytes : List UInt8) (attributes : Attributes) :
    e ≠ .enqueue bytes attributes := by
  rintro rfl
  unfold runEvents at he
  split at he
  · obtain ⟨deed, -, hdeed⟩ := List.mem_filterMap.1 he
    cases deed <;> cases hdeed
  · cases he

/-- **A run does to the workspace what its events do**, and leaves the processor alone. -/
theorem run_events (b : Bench υ) (options : RunOptions) (turns : Crew.Turns) :
    (b.run options turns).2.processor = b.processor ∧
      (b.run options turns).2.workspace =
        (b.runEvents options turns).foldl Workspace.handle b.workspace := by
  unfold runEvents
  cases hadmitted : b.admitted with
  | false =>
    obtain ⟨-, hprocessor, hworkspace⟩ := run_of_not_admitted hadmitted options turns
    exact ⟨hprocessor, hworkspace⟩
  | true =>
    obtain ⟨-, hprocessor, hworkspace⟩ := run_of_admitted hadmitted options turns
    rw [hprocessor, hworkspace, if_pos rfl]
    refine Engine.run_deeds (p := plant) (I := fun deeds (c : Bench υ) =>
      c.processor = b.processor ∧
        c.workspace = (deeds.filterMap Deed.event?).foldl Workspace.handle b.workspace)
      (fun deed deeds c h => ⟨h.1, ?_⟩) (fun phase deeds c h => ?_) (fun _ _ _ _ h => h) ⟨rfl, rfl⟩
    · show (deed.effect c.stage).workspace = _
      rw [Deed.effect_workspace, List.filterMap_append, List.foldl_append, ← h.2]
      cases hdeed : deed.event? <;> simp [hdeed, stage]
    · obtain ⟨hsame, hfire⟩ := fire_aside c phase
      exact ⟨hsame.trans h.1, hfire.trans h.2⟩

/-- A bench that was not used yet. -/
structure New (b : Bench υ) : Prop where
  queue : b.pool.queue.flowFiles = []
  sessions : b.workspace.sessions = []
  remembered : b.workspace.forgotten = 0

theorem New.of_assemble {p : Processor υ} {target : Target (Context.signature υ) υ}
    {config : Config} {sources : Sources} {w : World υ}
    (h : (assemble p target config sources w).1 = .ok b) :
    b.New ∧ b.processor = p := by
  unfold assemble at h
  dsimp only at h
  split at h
  · cases h
  · split at h
    · cases h
    · split at h
      · cases h
      · cases h
        exact ⟨⟨rfl, rfl, rfl⟩, rfl⟩

/-- A bench is new when it was made. -/
theorem New.of_make {p : Processor υ} {declared : Component (Context.signature υ) υ}
    {config : Config} {sources : Sources} {w : World υ}
    (h : (make (some p) declared config sources w).1 = .ok b) :
    b.New ∧ b.processor = p := by
  unfold make at h
  dsimp only at h
  split at h
  · cases h
  · exact New.of_assemble h

end Bench

end ProcessorBench
