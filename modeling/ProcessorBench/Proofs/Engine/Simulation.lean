import ProcessorBench.Engine

/-!
# Controls that behave alike

The engine sees of a run only what its controls answer.  If two controls answer alike in related
states, then what they drive has the same runs (`Engine.drive_agrees`): the same outcome, and related
states at the end.  A relation that holds of one state and itself is an invariant of runs.
-/

set_option autoImplicit false

namespace ProcessorBench

variable {σ τ : Type}

/-- The answers are the same, and the states that were left are related. -/
def Controls.Agree (R : τ → σ → Prop) (x : Except Error Unit × τ) (y : Except Error Unit × σ) :
    Prop :=
  x.1 = y.1 ∧ R x.2 y.2

theorem Controls.Agree.exists_eq {R : τ → σ → Prop} {x : Except Error Unit × τ}
    {y : Except Error Unit × σ} (h : Agree R x y) : ∃ r t s, x = (r, t) ∧ y = (r, s) ∧ R t s :=
  ⟨x.1, x.2, y.2, rfl, Prod.ext h.1.symm rfl, h.2⟩

/-- From related states both controls answer alike, and the states stay related. -/
structure Controls.Simulates (q : Controls τ) (p : Controls σ) (R : τ → σ → Prop) : Prop where
  await : ∀ i t s, R t s → Agree R (q.await i t) (p.await i s)
  fire : ∀ phase t s, R t s → Agree R (q.fire phase t) (p.fire phase s)
  note : ∀ level text t s, R t s → R (q.note level text t) (p.note level text s)
  invocations : ∀ t s, R t s → q.invocations t = p.invocations s

namespace Engine

open Controls

variable {q : Controls τ} {p : Controls σ} {R : τ → σ → Prop}

/-- Two runs stand at related places. -/
structure Progress.Agree (R : τ → σ → Prop) (a : Progress τ) (b : Progress σ) : Prop where
  state : R a.state b.state
  failures : a.failures = b.failures
  unscheduled : a.unscheduled = b.unscheduled

theorem step_agrees (h : q.Simulates p R) {a : Progress τ} {b : Progress σ} (hab : a.Agree R b)
    (i : Nat) : (step q a i).Agree R (step p b i) := by
  obtain ⟨r, t, s, hq, hp, hR⟩ := (h.await i _ _ hab.state).exists_eq
  unfold step
  rw [hq, hp]
  cases r with
  | error e =>
    refine ⟨h.note _ _ _ _ hR, ?_, hab.unscheduled⟩
    show a.failures ++ _ = b.failures ++ _
    rw [hab.failures]
  | ok _ =>
    simp only [hab.unscheduled]
    cases b.unscheduled with
    | some u => exact ⟨hR, hab.failures, rfl⟩
    | none =>
      obtain ⟨hfire, hfireR⟩ := h.fire .unscheduled _ _ hR
      exact ⟨hfireR, hab.failures, congrArg some hfire⟩

theorem collect_agrees (h : q.Simulates p R) (n : Nat) {t : τ} {s : σ} (hR : R t s) :
    (collect q n t).Agree R (collect p n s) := by
  unfold collect
  induction n with
  | zero => exact ⟨hR, rfl, rfl⟩
  | succ n ih =>
    rw [List.range_succ, List.foldl_append, List.foldl_append]
    exact step_agrees h ih n

theorem unschedule_agrees (h : q.Simulates p R) {a : Progress τ} {b : Progress σ}
    (hab : a.Agree R b) : Controls.Agree R (unschedule q a) (unschedule p b) := by
  unfold unschedule
  rw [hab.unscheduled]
  cases b.unscheduled with
  | some r => exact ⟨rfl, hab.state⟩
  | none => exact h.fire .unscheduled _ _ hab.state

theorem supersede_agrees (h : q.Simulates p R) (failures : List (Nat × Error)) (phase : Text)
    {t : τ} {s : σ} (hR : R t s) :
    R (supersede q failures phase t) (supersede p failures phase s) := by
  unfold supersede
  split
  · exact hR
  · exact h.note _ _ _ _ hR

theorem report_agrees (h : q.Simulates p R) (failures : List (Nat × Error)) {t : τ} {s : σ}
    (hR : R t s) : Controls.Agree R (report q failures t) (report p failures s) := by
  unfold report
  cases failures with
  | nil =>
    dsimp only
    rw [h.invocations t s hR]
    exact ⟨rfl, h.note _ _ _ _ hR⟩
  | cons first later =>
    cases later with
    | nil => exact ⟨rfl, hR⟩
    | cons second later => exact ⟨rfl, h.note _ _ _ _ hR⟩

theorem finish_agrees (h : q.Simulates p R) (options : RunOptions) {a : Progress τ}
    {b : Progress σ} (hab : a.Agree R b) :
    Controls.Agree R (finish q options a) (finish p options b) := by
  obtain ⟨r, t, s, hq, hp, hR⟩ := (unschedule_agrees h hab).exists_eq
  unfold finish
  rw [hq, hp, hab.failures]
  cases r with
  | error e => exact ⟨rfl, supersede_agrees h _ _ hR⟩
  | ok _ =>
    cases options.stopOnFinish with
    | false => exact report_agrees h _ hR
    | true =>
      obtain ⟨r, t', s', hq', hp', hR'⟩ := (h.fire .stopped _ _ hR).exists_eq
      simp only [if_true, hq', hp']
      cases r with
      | error e => exact ⟨rfl, supersede_agrees h _ _ hR'⟩
      | ok _ => exact report_agrees h _ hR'

theorem execute_agrees (h : q.Simulates p R) (options : RunOptions) {t : τ} {s : σ}
    (hR : R t s) : Controls.Agree R (execute q options t) (execute p options s) :=
  finish_agrees h options (collect_agrees h options.iterations.toNat hR)

/-- **The engine cannot tell apart two controls that answer alike.** -/
theorem drive_agrees (h : q.Simulates p R) (threads : Int) (options : RunOptions) {t : τ} {s : σ}
    (hR : R t s) :
    Controls.Agree R (drive q threads options t) (drive p threads options s) := by
  unfold drive
  split
  · exact ⟨rfl, hR⟩
  · generalize Text.join ["InvocationEngine::Run: ", Text.decimalInt options.iterations,
      " iteration(s) on ", Text.decimalInt threads, " thread(s)"] = text
    have hnote := h.note .info text t s hR
    generalize q.note .info text t = t at hnote
    generalize p.note .info text s = s at hnote
    cases options.schedule with
    | false => exact execute_agrees h options hnote
    | true =>
      obtain ⟨r, t', s', hq, hp, hR'⟩ := (h.fire .scheduled t s hnote).exists_eq
      simp only [if_true, hq, hp]
      cases r with
      | error e => exact ⟨rfl, hR'⟩
      | ok _ => exact execute_agrees h options hR'

end Engine

end ProcessorBench
