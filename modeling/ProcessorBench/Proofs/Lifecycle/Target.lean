import ProcessorBench.Lifecycle.Target

/-!
# How calls of hooks fail

Whatever a hook fails with, the caller of the target sees an error that tells the phase and the type
of the component; only a target that is not bound fails otherwise.
-/

set_option autoImplicit false

namespace ProcessorBench

variable {S : Signature} {σ : Type} {phase : Phase} {args : Arguments S} {s : σ} {log : Log}
  {error : Error}

theorem Component.invoke_error {c : Component S σ}
    (h : (c.invoke phase args s log).outcome = .error error) :
    ∃ cause, error = .lifecycle phase c.typeName cause := by
  unfold invoke at h
  split at h
  · cases h
  · split at h
    · cases h
    · cases h
      exact ⟨_, rfl⟩

namespace Target

theorem invoke_error {t : Target S σ} (h : (t.invoke phase args s log).outcome = .error error) :
    error = .unboundTarget ∨ ∃ cause, error = .lifecycle phase t.typeName cause := by
  obtain ⟨component⟩ := t
  cases component with
  | none =>
    cases h
    exact .inl rfl
  | some c => exact .inr (Component.invoke_error h)

theorem invoke_error_of_bound {t : Target S σ} (hbound : t.isBound = true)
    (h : (t.invoke phase args s log).outcome = .error error) :
    ∃ cause, error = .lifecycle phase t.typeName cause := by
  obtain ⟨component⟩ := t
  obtain ⟨c, rfl⟩ := Option.isSome_iff_exists.1 hbound
  exact Component.invoke_error h

end Target

end ProcessorBench
