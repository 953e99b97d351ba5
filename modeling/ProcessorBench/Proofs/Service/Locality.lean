import ProcessorBench.Proofs.Service.Lifecycle

/-!
# Requests are local and atomic

A request is about one service.  Whatever it does, the others stay as they are, and if it fails
then so does its own, unless an enabled service was to be disabled.

* `Registry.Request.Atomic` — what a request leaves, also when it fails.
* `Registry.requests_atomic` — every request is atomic, and what is registered under an identifier
  depends on the requests for it alone.

A question about a service answers and leaves no registry, so there is nothing to show of it.
-/

set_option autoImplicit false

namespace ProcessorBench

namespace Registry

variable {υ : Type} {r r' : Registry υ} {identifier : Text}

/-! ## Requests that fail -/

/-- What a request leaves of the registry. -/
structure Request.Atomic (q : Request υ) (r : Registry υ) (w : World υ) : Prop where
  /-- What stands under other identifiers stays. -/
  elsewhere : ∀ j, j ≠ q.identifier →
    (q.perform r w).2.1.registrations.get? j = r.registrations.get? j
  /-- A request that fails changes nothing, unless it is to disable an enabled service. -/
  failed : ∀ e, (q.perform r w).1 = .error e →
    (∀ identifier, q = .disable identifier → r.standing identifier ≠ .enabled) →
    (q.perform r w).2.1 = r
  /-- An enabled service that is to be disabled is disabled, whether or not its hooks fail, and
  nothing else of it changes. -/
  disabled : ∀ identifier g, q = .disable identifier →
    r.registrations.get? identifier = some g → g.enabled = true →
    (q.perform r w).2.1 = r.put identifier { g with enabled := false }
  /-- A property that a disabled service does not have is rejected, and nothing changes. -/
  undeclared : ∀ identifier name value g, q = .setPropertyByName identifier name value →
    r.registrations.get? identifier = some g → g.enabled = false →
    g.service.configurable.descriptor? name = .ok none →
    ∃ verdict, r.setPropertyByName identifier name value w = (.ok verdict, r, w) ∧
      verdict.valid = false

theorem disable_of_enabled {g : Registration υ} (hg : r.registrations.get? identifier = some g)
    (henabled : g.enabled = true) (w : World υ) :
    (r.disable identifier w).2.1 = r.put identifier { g with enabled := false } := by
  unfold disable demand
  rw [hg]
  simp [henabled]

theorem setPropertyByName_of_undeclared {g : Registration υ} {name : Text}
    (hg : r.registrations.get? identifier = some g) (hdisabled : g.enabled = false)
    (hname : g.service.configurable.descriptor? name = .ok none) (value : Text) (w : World υ) :
    ∃ verdict, r.setPropertyByName identifier name value w = (.ok verdict, r, w) ∧
      verdict.valid = false := by
  unfold setPropertyByName demandDisabled demand
  rw [hg]
  simp only [hdisabled, Bool.false_eq_true, if_false, hname]
  exact ⟨_, rfl, rfl⟩

/-- A phase that fails is settled by disabling the service, or by nothing. -/
theorem settle_of_failed {phase : Phase} (hphase : phase ≠ .disabled) (g : Registration υ) :
    r.settle identifier g false phase = r := by
  cases phase <;> first | rfl | exact absurd rfl hphase

theorem Request.perform_of_failed {q : Request υ} {w : World υ} {e : Error}
    (he : (q.perform r w).1 = .error e)
    (hdisable : ∀ identifier, q = .disable identifier → r.standing identifier ≠ .enabled) :
    (q.perform r w).2.1 = r := by
  have hcourse := q.course r w
  generalize q.fires? r w.user = due at hcourse
  generalize q.perform r w = x at hcourse he
  cases hcourse with
  | quiet user fails => rfl
  | configures plain found disabled user => cases he
  | @fires phase g w' answer due found fresh user agrees hooks =>
    obtain ⟨hphase, hsource⟩ := source_of_fires? due
    have hne : phase ≠ .disabled := by
      rintro rfl
      cases q with
      | disable identifier => exact hdisable identifier rfl (Option.some.inj hsource).symm
      | _ => cases hphase
    have hfailed : answer = .error e := he
    subst hfailed
    exact settle_of_failed hne g

theorem Request.atomic (q : Request υ) (r : Registry υ) (w : World υ) : q.Atomic r w where
  elsewhere _ hj := q.get?_perform_of_ne r w hj
  failed _ he hdisable := perform_of_failed he hdisable
  disabled identifier g hq hg henabled := by
    subst hq
    exact disable_of_enabled hg henabled w
  undeclared identifier name value g _ hg hdisabled hname :=
    setPropertyByName_of_undeclared hg hdisabled hname value w

/-! ## Any requests -/

theorem Chronicle.get?_foldl_filter {c c' : Chronicle υ}
    (h : c.registry.registrations.get? identifier = c'.registry.registrations.get? identifier)
    (events : List (Request υ × World υ)) :
    (events.foldl step c).registry.registrations.get? identifier =
      ((events.filter fun e => e.1.identifier = identifier).foldl step c').registry.registrations.get?
        identifier := by
  induction events generalizing c c' with
  | nil => exact h
  | cons e rest ih =>
    rw [List.foldl_cons, List.filter_cons]
    by_cases he : e.1.identifier = identifier
    · rw [if_pos (decide_eq_true he), List.foldl_cons]
      subst he
      exact ih (e.1.perform_congr h e.2).2.1
    · rw [if_neg (by simpa using he)]
      -- only one side takes the request, and it is about another service
      refine ih ?_
      rw [← h]
      exact e.1.get?_perform_of_ne c.registry e.2 fun hj => he hj.symm

/-- **Requests are atomic and local.**  After any requests, whatever request comes next leaves all
that it is not about, and if it fails it leaves all but the flag of a service that was to be
disabled; and what is registered under an identifier is what the requests for it made of it. -/
theorem requests_atomic (events : List (Request υ × World υ)) :
    (∀ (q : Request υ) (w : World υ), q.Atomic (Chronicle.after events).registry w) ∧
      ∀ identifier, (Chronicle.after events).registry.registrations.get? identifier =
        (Chronicle.after <| events.filter fun e =>
          e.1.identifier = identifier).registry.registrations.get? identifier :=
  ⟨fun q w => q.atomic _ w, fun _ => Chronicle.get?_foldl_filter rfl events⟩

end Registry

end ProcessorBench
