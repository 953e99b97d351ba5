import Mathlib.Data.List.Permutation
import ProcessorBench.Bench.Basic
import ProcessorBench.Proofs.Engine.Crew
import ProcessorBench.Proofs.Lifecycle.Target

/-!
# The outcome of a run of the bench

The plant of a bench is its processor, told about phases through the target of the bench.  Whatever
triggers do, and in whatever turns, they leave processor and target alone, so a phase that fails
fails with an error that names it (`Bench.run_outcome`).
-/

set_option autoImplicit false

namespace ProcessorBench

namespace Bench

variable {υ : Type}

theorem fire_target (b : Bench υ) (phase : Phase) : (b.fire phase).2.target = b.target := by
  unfold fire
  split <;> rfl

theorem fire_error {b : Bench υ} (hbound : b.target.isBound = true) {phase : Phase} {error : Error}
    (h : (b.fire phase).1 = .error error) :
    ∃ cause, error = .lifecycle phase b.target.typeName cause := by
  unfold fire at h
  split at h <;> exact Target.invoke_error_of_bound hbound h

/-- The target stays the same in a run. -/
theorem target_kept (threads : Nat) (target : Target (Context.signature υ) υ) :
    Crew.Kept plant threads fun _ (c : Crew (Bench υ) (Deed υ)) => c.plant.target = target :=
  .of_plant (I := fun b : Bench υ => b.target = target) (fun _ _ h => h)
    (fun phase b h => (b.fire_target phase).trans h) (fun _ _ _ h => h)

/-- **The outcome of a run.**  Without iterations nothing happens.  If the processor is to be
scheduled and that fails, nothing else happens.  Else the processor is triggered as often as asked
for, it is unscheduled once, after the first success if there is one, and it is stopped once, at
the end, if that is asked for and unscheduling went well; the outcome is the verdict on all this, and
each trigger has ended with the result that was taken in for it.  A phase that fails does so with an
error that names it. -/
theorem run_outcome {b : Bench υ} (hbound : b.target.isBound = true) (options : RunOptions)
    (turns : Crew.Turns) :
    let r := b.engine.run plant options turns b
    let calls := b.engine.calls plant options turns b
    (options.iterations < 1 →
      r = (.error (.configuration (.iterations options.iterations)), b.engine, b) ∧ calls = []) ∧
    (1 ≤ options.iterations →
      (options.schedule = true ∧ ∃ error, r.1 = .error error ∧ r.2.1 = b.engine ∧
        calls = [.fire .scheduled (.error error)]) ∨
      ∃ triggers unscheduled stopped, triggers.length = options.iterations.toNat ∧
        r.1 = Engine.verdict options triggers unscheduled stopped ∧
        r.2.1 = { b.engine with
          invocations := b.engine.invocations + .ofNat options.iterations.toNat } ∧
        calls = (if options.schedule then [.fire .scheduled (.ok ())] else []) ++
          Engine.course unscheduled triggers ++ Engine.ending options unscheduled stopped ∧
        (b.engine.after plant options turns b).jobs = triggers.map .ended) ∧
    ∀ phase error, .fire phase (.error error) ∈ calls →
      ∃ cause, error = .lifecycle phase b.target.typeName cause := by
  intro r calls
  have hkept := target_kept b.engine.threads.toNat b.target
  refine ⟨fun h => ?_, fun h => ?_, fun phase error hm => ?_⟩
  · obtain ⟨hrun, hcalls, -⟩ := Engine.run_of_lt b.engine plant turns b h
    exact ⟨hrun, hcalls⟩
  · obtain ⟨-, ⟨hschedule, error, hrun, hcalls, -⟩ | ⟨triggers, unscheduled, stopped, hlength, hrun,
      hcalls, -, htold⟩⟩ := Engine.run_crew hkept options turns b rfl h
    · change r = _ at hrun
      rw [hrun]
      exact .inl ⟨hschedule, error, rfl, rfl, hcalls⟩
    · change r = _ at hrun
      rw [hrun]
      have hresults := Engine.results_of_calls hcalls
      refine .inr ⟨triggers, unscheduled, stopped, hlength, rfl, rfl, hcalls, ?_⟩
      rw [htold.jobs_eq (hresults ▸ hlength), hresults]
  · have hnames : ∀ phase result, .fire phase result ∈ calls → ∀ error, result = .error error →
        ∃ cause, error = .lifecycle phase b.target.typeName cause :=
      Engine.calls_fires (s := b) hkept rfl fun phase hc error herror => by
        rw [← hc] at hbound ⊢
        exact fire_error hbound herror
    exact hnames phase _ hm error rfl

/-- Two iterations of a processor that fails when it is the first one to get to its state.  Two
threads trigger it, and the second trigger overtakes the first one. -/
theorem run_outcome_of_two_iterations :
    ∃ (b : Bench Nat) (turns : Crew.Turns), b.target.isBound = true ∧
      (b.engine.run plant { iterations := 2 } turns b).1 = .error (.triggers 1 .foreign []) ∧
      ∃ triggers unscheduled stopped, triggers.length = 2 ∧
        b.engine.calls plant { iterations := 2 } turns b = [.fire .scheduled (.ok ())] ++
          Engine.course unscheduled triggers ++
          Engine.ending { iterations := 2 } unscheduled stopped := by
  let component : Component (Context.signature Nat) Nat := { typeName := "Failing" }
  let body : Procedure (Stage Nat) (Deed Nat) := .step (.touch (· + 1)) fun s =>
    .done (if s.world.user = 0 then .error .foreign else .ok ())
  let b : Bench Nat :=
    { processor := { component, trigger := .free body }, target := ⟨some component⟩
      engine := { threads := 2 }, context := { identifier := "p", processor := {} }
      workspace := { pool := {} }, world := { user := 0 } }
  let turns : Crew.Turns := fun i => if i = 0 then [0, 1, 1, 0] else []
  have houtcome : (b.engine.run plant { iterations := 2 } turns b).1 =
      .error (.triggers 1 .foreign []) := by cbv
  refine ⟨b, turns, rfl, houtcome, ?_⟩
  have hlength : (b.engine.calls plant { iterations := 2 } turns b).length = 5 := by cbv
  obtain ⟨-, error, -, -, hcalls⟩ | ⟨triggers, unscheduled, stopped, htriggers, -, -, hcalls, -⟩ :=
    (run_outcome (b := b) rfl { iterations := 2 } turns).2.1 (by decide)
  · rw [hcalls] at hlength
    cases hlength
  · exact ⟨triggers, unscheduled, stopped, htriggers, hcalls⟩

end Bench

end ProcessorBench
