import ProcessorBench.Proofs.Engine.Simulation

/-!
# The outcome of a run

A run is seen through what the engine does with its controls: the results that it takes in, the
phases that it tells the plant about, and what it notes.  `Controls.recorded` writes the calls down
and `Controls.noted` the notes; both drive as the controls themselves do.  `Controls.Keeps` tells
what every call and every note keeps.

* `Engine.course` — the results of a run, with the call that unschedules right after the first
  success, or at the end if there is none.
* `Engine.failed` — the triggers that failed, by number.
* `Engine.verdict` — how a run ends, given how its triggers and phases ended.
* `Engine.closing` — what is noted at the end of a run.
* `Engine.drive_cases` — every run makes these calls, ends that way, and has that noted.
-/

set_option autoImplicit false

namespace ProcessorBench

variable {τ : Type}

namespace Controls

/-- A call that the engine makes in a run, and how it ended: it waits for a trigger, or tells the
plant about a phase. -/
inductive Call where
  | trigger (result : Except Error Unit)
  | fire (phase : Phase) (result : Except Error Unit)

/-- Controls that also write down the calls made, oldest first. -/
def recorded (c : Controls τ) : Controls (τ × List Call) where
  await i s := ((c.await i s.1).1, (c.await i s.1).2, s.2 ++ [.trigger (c.await i s.1).1])
  fire phase s :=
    ((c.fire phase s.1).1, (c.fire phase s.1).2, s.2 ++ [.fire phase (c.fire phase s.1).1])
  note level text s := (c.note level text s.1, s.2)
  invocations s := c.invocations s.1

/-- What the engine notes about its plant. -/
abbrev Note := Log.Level × Text

/-- Controls that also write down the notes, oldest first. -/
def noted (c : Controls τ) : Controls (τ × List Note) where
  await i s := ((c.await i s.1).1, (c.await i s.1).2, s.2)
  fire phase s := ((c.fire phase s.1).1, (c.fire phase s.1).2, s.2)
  note level text s := (c.note level text s.1, s.2 ++ [(level, text)])
  invocations s := c.invocations s.1

/-- The result, if the call was to wait for one. -/
def Call.result? : Call → Option (Except Error Unit)
  | trigger result => some result
  | fire _ _ => none

/-- The results among the calls. -/
def results (calls : List Call) : List (Except Error Unit) := calls.filterMap Call.result?

/-- What all calls and notes keep, of what was noted and called so far and of the state.  So many
results are waited for, in their order, and a note does not count as a trigger. -/
structure Keeps (c : Controls τ) (n : Nat) (I : List Note → List Call → τ → Prop) : Prop where
  await : ∀ {notes calls s i}, i = (results calls).length → i < n → I notes calls s →
    I notes (calls ++ [.trigger (c.await i s).1]) (c.await i s).2
  fire : ∀ {notes calls s} (phase : Phase), I notes calls s →
    I notes (calls ++ [.fire phase (c.fire phase s).1]) (c.fire phase s).2
  note : ∀ {notes calls s} (level : Log.Level) (text : Text), I notes calls s →
    I (notes ++ [(level, text)]) calls (c.note level text s)
  invocations : ∀ level text s, c.invocations (c.note level text s) = c.invocations s

/-- Notes that are written down are the notes. -/
theorem Keeps.noted {c : Controls τ} {n : Nat} {I : List Note → List Call → τ → Prop}
    (h : c.Keeps n I) : c.noted.Keeps n fun notes calls s => s.2 = notes ∧ I notes calls s.1 where
  await hi hn hs := ⟨hs.1, h.await hi hn hs.2⟩
  fire phase hs := ⟨hs.1, h.fire phase hs.2⟩
  note level text hs := ⟨congrArg (· ++ [(level, text)]) hs.1, h.note level text hs.2⟩
  invocations level text s := h.invocations level text s.1

/-- What the answers to phases have in common is true of all that were written down. -/
theorem Keeps.fires {c : Controls τ} {n : Nat} {I : List Note → List Call → τ → Prop}
    (h : c.Keeps n I) {Q : Phase → Except Error Unit → Prop}
    (hQ : ∀ {notes calls s} (phase : Phase), I notes calls s → Q phase (c.fire phase s).1) :
    c.Keeps n fun notes calls s =>
      I notes calls s ∧ ∀ phase result, .fire phase result ∈ calls → Q phase result where
  await hi hn hs := by
    refine ⟨h.await hi hn hs.1, fun phase result hm => hs.2 phase result ?_⟩
    simpa using hm
  fire phase hs := by
    refine ⟨h.fire phase hs.1, fun phase' result hm => ?_⟩
    rcases List.mem_append.1 hm with hm | hm
    · exact hs.2 phase' result hm
    · obtain ⟨rfl, rfl⟩ := Call.fire.inj (List.mem_singleton.1 hm)
      exact hQ phase' hs.1
  note level text hs := ⟨h.note level text hs.1, hs.2⟩
  invocations := h.invocations

@[simp] theorem results_append (calls calls' : List Call) :
    results (calls ++ calls') = results calls ++ results calls' := List.filterMap_append

/-! ### Writing down changes nothing -/

theorem recorded_simulates (c : Controls τ) : c.recorded.Simulates c fun t s => t.1 = s := by
  constructor
  · rintro i t _ rfl
    exact ⟨rfl, rfl⟩
  · rintro phase t _ rfl
    exact ⟨rfl, rfl⟩
  · rintro level text t _ rfl
    rfl
  · rintro t _ rfl
    rfl

theorem noted_simulates (c : Controls τ) : c.noted.Simulates c fun t s => t.1 = s := by
  constructor
  · rintro i t _ rfl
    exact ⟨rfl, rfl⟩
  · rintro phase t _ rfl
    exact ⟨rfl, rfl⟩
  · rintro level text t _ rfl
    rfl
  · rintro t _ rfl
    rfl

/-- Controls that behave alike have the same calls written down. -/
theorem Simulates.recorded {σ : Type} {q : Controls τ} {p : Controls σ} {R : τ → σ → Prop}
    (h : q.Simulates p R) :
    q.recorded.Simulates p.recorded fun t s => R t.1 s.1 ∧ t.2 = s.2 where
  await i t s hR := by
    obtain ⟨hanswer, hstate⟩ := h.await i t.1 s.1 hR.1
    exact ⟨hanswer, hstate, by simp only [Controls.recorded, hR.2, hanswer]⟩
  fire phase t s hR := by
    obtain ⟨hanswer, hstate⟩ := h.fire phase t.1 s.1 hR.1
    exact ⟨hanswer, hstate, by simp only [Controls.recorded, hR.2, hanswer]⟩
  note level text t s hR := ⟨h.note level text t.1 s.1 hR.1, hR.2⟩
  invocations t s hR := h.invocations t.1 s.1 hR.1

end Controls

namespace Engine

open Controls

/-- The triggers of a run and the call that unschedules: it follows the first success. -/
def course (unscheduled : Except Error Unit) : List (Except Error Unit) → List Call
  | [] => [.fire .unscheduled unscheduled]
  | .error e :: rest => .trigger (.error e) :: course unscheduled rest
  | .ok () :: rest => .trigger (.ok ()) :: .fire .unscheduled unscheduled :: rest.map .trigger

/-- The triggers that failed, each with its number. -/
def failed (triggers : List (Except Error Unit)) : List (Nat × Error) :=
  triggers.zipIdx.filterMap fun (r, i) =>
    match r with
    | .error e => some (i, e)
    | .ok () => none

/-- The call at the end of a run, if all that came before allows it. -/
def ending (options : RunOptions) (unscheduled stopped : Except Error Unit) : List Call :=
  match unscheduled with
  | .error _ => []
  | .ok () => if options.stopOnFinish then [.fire .stopped stopped] else []

/-- How a run ends: with the failure to unschedule, else with the failure to stop, else with the
triggers that failed, if any did. -/
def verdict (options : RunOptions) (triggers : List (Except Error Unit))
    (unscheduled stopped : Except Error Unit) : Except Error Unit :=
  match unscheduled, (if options.stopOnFinish then stopped else .ok ()), failed triggers with
  | .error e, _, _ => .error e
  | .ok (), .error e, _ => .error e
  | .ok (), .ok (), [] => .ok ()
  | .ok (), .ok (), (i, first) :: later => .error (.triggers i first later)

/-! ## Notes -/

/-- The note that a run begins with. -/
def openingNote (threads : Int) (options : RunOptions) : Note :=
  (.info, Text.join ["InvocationEngine::Run: ", Text.decimalInt options.iterations,
    " iteration(s) on ", Text.decimalInt threads, " thread(s)"])

/-- The note on a failed trigger: its number, and its error. -/
def failureNote (failure : Nat × Error) : Note :=
  (.error, Text.join ["InvocationEngine::Run: iteration ", Text.decimal failure.1, " failed: ",
    failure.2.describe])

/-- The note that so many failed triggers are not reported, because a phase failed. -/
def supersededNote (count : Nat) (phase : Phase) : Note :=
  (.error, Text.join ["InvocationEngine::Run: ", Text.decimal count,
    " trigger failure(s) are superseded by the ", phase.name, " failure"])

/-- The note that lists all failed triggers that an error reports. -/
def listingNote (error : Error) : Note :=
  (.error, Text.join ["InvocationEngine::Run: ", Text.decimal error.failures.length,
    " iterations failed:\n", error.report])

/-- The note that a run went well. -/
def completionNote (invocations : UInt64) : Note :=
  (.info, Text.join ["InvocationEngine::Run: completed, ", Text.decimal invocations.toNat,
    " invocation(s) in total"])

/-- What is noted of failed triggers when a phase failed. -/
def superseded (failures : List (Nat × Error)) (phase : Phase) : List Note :=
  if failures.isEmpty then [] else [supersededNote failures.length phase]

/-- What is noted when all phases went well. -/
def reported (failures : List (Nat × Error)) (invocations : UInt64) : List Note :=
  match failures with
  | [] => [completionNote invocations]
  | [_] => []
  | (i, first) :: later => [listingNote (.triggers i first later)]

/-- What is noted at the end of a run, after the notes on the triggers that failed. -/
def closing (options : RunOptions) (failures : List (Nat × Error))
    (unscheduled stopped : Except Error Unit) (invocations : UInt64) : List Note :=
  match unscheduled, (if options.stopOnFinish then stopped else .ok ()) with
  | .error _, _ => superseded failures .unscheduled
  | .ok (), .error _ => superseded failures .stopped
  | .ok (), .ok () => reported failures invocations

/-! ## Failed triggers -/

theorem mem_failed {triggers : List (Except Error Unit)} {i : Nat} {e : Error} :
    (i, e) ∈ failed triggers ↔ triggers[i]? = some (.error e) := by
  unfold failed
  rw [List.mem_filterMap]
  constructor
  · rintro ⟨⟨r, j⟩, hm, hr⟩
    cases r with
    | ok _ => cases hr
    | error e' =>
      obtain ⟨rfl, rfl⟩ : j = i ∧ e' = e := by simpa using hr
      exact List.mem_zipIdx_iff_getElem?.1 hm
  · intro h
    exact ⟨(.error e, i), List.mem_zipIdx_iff_getElem?.2 h, rfl⟩

/-- The numbers of the failed triggers ascend. -/
theorem failed_ascending (triggers : List (Except Error Unit)) :
    (failed triggers).Pairwise fun a b => a.1 < b.1 := by
  have hindex : triggers.zipIdx.Pairwise fun a b => a.2 < b.2 := by
    rw [← List.pairwise_map (f := Prod.snd) (R := (· < ·)), List.zipIdx_map_snd]
    exact List.pairwise_lt_range'
  unfold failed
  rw [List.pairwise_filterMap]
  refine hindex.imp ?_
  rintro ⟨r, i⟩ ⟨r', j⟩ hij x hx y hy
  cases r with
  | ok _ => cases hx
  | error e =>
    cases r' with
    | ok _ => cases hy
    | error e' =>
      cases hx
      cases hy
      exact hij

theorem failed_append (triggers : List (Except Error Unit)) (r : Except Error Unit) :
    failed (triggers ++ [r]) = failed triggers ++
      match r with
      | .error e => [(triggers.length, e)]
      | .ok () => [] := by
  unfold failed
  rw [List.zipIdx_append, List.filterMap_append]
  cases r <;> simp

/-- There is a failure for each trigger that failed. -/
theorem length_failed (triggers : List (Except Error Unit)) :
    (failed triggers).length = triggers.countP fun r => !r.isOk := by
  have hindexed : (triggers.countP fun r => !r.isOk) =
      triggers.zipIdx.countP ((fun r => !r.isOk) ∘ Prod.fst) := by
    rw [← List.countP_map, List.zipIdx_map_fst]
  unfold failed
  rw [List.length_filterMap_eq_countP, hindexed]
  refine List.countP_congr ?_
  rintro ⟨r, i⟩ -
  cases r <;> simp [Except.isOk, Except.toBool]

/-! ## Recording -/

theorem course_of_all_failed {unscheduled : Except Error Unit} {triggers : List (Except Error Unit)}
    (h : .ok () ∉ triggers) :
    course unscheduled triggers = triggers.map .trigger ++ [.fire .unscheduled unscheduled] := by
  induction triggers with
  | nil => rfl
  | cons r rest ih =>
    cases r with
    | ok _ => exact absurd List.mem_cons_self h
    | error e =>
      have hrest : .ok () ∉ rest := fun hm => h (List.mem_cons_of_mem _ hm)
      unfold course
      rw [ih hrest]
      rfl

/-- After a success, a further trigger comes at the end. -/
theorem course_append {unscheduled : Except Error Unit} {triggers : List (Except Error Unit)}
    (h : .ok () ∈ triggers) (r : Except Error Unit) :
    course unscheduled (triggers ++ [r]) = course unscheduled triggers ++ [.trigger r] := by
  induction triggers with
  | nil => cases h
  | cons r' rest ih =>
    cases r' with
    | ok _ => simp [course]
    | error e =>
      have hrest : .ok () ∈ rest := by simpa using h
      simp [course, ih hrest]

/-- The first success is followed by the call that unschedules. -/
theorem course_append_ok {unscheduled : Except Error Unit} {triggers : List (Except Error Unit)}
    (h : .ok () ∉ triggers) :
    course unscheduled (triggers ++ [.ok ()]) =
      triggers.map .trigger ++ [.trigger (.ok ()), .fire .unscheduled unscheduled] := by
  induction triggers with
  | nil => rfl
  | cons r rest ih =>
    cases r with
    | ok _ => exact absurd List.mem_cons_self h
    | error e =>
      have hrest : .ok () ∉ rest := fun hm => h (List.mem_cons_of_mem _ hm)
      simp [course, ih hrest]

/-! ## The results among the calls -/

@[simp] theorem results_map_trigger (triggers : List (Except Error Unit)) :
    results (triggers.map Call.trigger) = triggers := by
  unfold results
  rw [List.filterMap_map]
  exact List.filterMap_some

@[simp] theorem results_course (unscheduled : Except Error Unit)
    (triggers : List (Except Error Unit)) : results (course unscheduled triggers) = triggers := by
  induction triggers with
  | nil => rfl
  | cons r rest ih =>
    cases r with
    | error e => exact congrArg (.error e :: ·) ih
    | ok _ => exact congrArg (.ok () :: ·) (results_map_trigger rest)

@[simp] theorem results_ending (options : RunOptions) (unscheduled stopped : Except Error Unit) :
    results (ending options unscheduled stopped) = [] := by
  unfold ending
  cases unscheduled with
  | error _ => rfl
  | ok _ => cases options.stopOnFinish <;> rfl

theorem results_of_calls {options : RunOptions} {calls : List Call}
    {triggers : List (Except Error Unit)} {unscheduled stopped : Except Error Unit}
    (h : calls = (if options.schedule then [.fire .scheduled (.ok ())] else []) ++
      course unscheduled triggers ++ ending options unscheduled stopped) :
    results calls = triggers := by
  rw [h, results_append, results_append, results_course, results_ending, List.append_nil]
  split <;> rfl

/-! ## All along a run -/

/-- The results of a row of triggers have come in, after the calls and notes made before them. -/
structure Progress.Recorded (I : List Note → List Call → τ → Prop) (before : List Call)
    (said : List Note) (triggers : List (Except Error Unit)) (s : Progress (τ × List Call)) :
    Prop where
  failures : s.failures = failed triggers
  pending : s.unscheduled = none →
    .ok () ∉ triggers ∧ s.state.2 = before ++ triggers.map .trigger
  done : ∀ r, s.unscheduled = some r → .ok () ∈ triggers ∧ s.state.2 = before ++ course r triggers
  kept : I (said ++ (failed triggers).map failureNote) s.state.2 s.state.1

section

variable {c : Controls τ} {n : Nat} {I : List Note → List Call → τ → Prop} {before : List Call}
  {said : List Note} {triggers : List (Except Error Unit)}

theorem Progress.Recorded.results (hbefore : results before = []) {s : Progress (τ × List Call)}
    (h : s.Recorded I before said triggers) : Controls.results s.state.2 = triggers := by
  cases hu : s.unscheduled with
  | none => rw [(h.pending hu).2, results_append, hbefore, results_map_trigger, List.nil_append]
  | some r => rw [(h.done r hu).2, results_append, hbefore, results_course, List.nil_append]

theorem step_recorded (hI : c.Keeps n I) (hbefore : results before = [])
    {s : Progress (τ × List Call)} (h : s.Recorded I before said triggers)
    (hn : triggers.length < n) :
    ∃ r, (step c.recorded s triggers.length).Recorded I before said (triggers ++ [r]) := by
  have hcount := congrArg List.length (h.results hbefore).symm
  obtain ⟨⟨state, calls⟩, failures, unscheduled⟩ := s
  obtain ⟨hfailures, hpending, hdone, hkept⟩ := h
  dsimp only at hfailures hpending hdone hkept hcount
  refine ⟨(c.await triggers.length state).1, ?_⟩
  have hfailed := failed_append triggers (c.await triggers.length state).1
  have hkept' := hI.await hcount hn hkept
  unfold step recorded
  dsimp only
  generalize c.await triggers.length state = answer at hfailed hkept' ⊢
  obtain ⟨r, state⟩ := answer
  cases r with
  | error e =>
    dsimp only at hfailed hkept' ⊢
    refine ⟨?_, ?_, ?_, ?_⟩
    · rw [hfailed, hfailures]
    · intro hu
      obtain ⟨hnone, hcalls⟩ := hpending hu
      refine ⟨by simpa using hnone, ?_⟩
      simp [hcalls]
    · intro u hu
      obtain ⟨hsome, hcalls⟩ := hdone u hu
      refine ⟨List.mem_append_left _ hsome, ?_⟩
      simp [hcalls, course_append hsome]
    · rw [hfailed, List.map_append, ← List.append_assoc]
      exact hI.note _ _ hkept'
  | ok _ =>
    dsimp only at hfailed hkept' ⊢
    rw [List.append_nil] at hfailed
    cases unscheduled with
    | some u =>
      obtain ⟨hsome, hcalls⟩ := hdone u rfl
      refine ⟨?_, fun hu => (by cases hu), ?_, ?_⟩
      · rw [hfailed, hfailures]
      · rintro _ ⟨⟩
        refine ⟨List.mem_append_left _ hsome, ?_⟩
        simp [hcalls, course_append hsome]
      · rw [hfailed]
        exact hkept'
    | none =>
      obtain ⟨hnone, hcalls⟩ := hpending rfl
      refine ⟨?_, fun hu => (by cases hu), ?_, ?_⟩
      · rw [hfailed, hfailures]
      · rintro _ ⟨⟩
        refine ⟨List.mem_append_right _ List.mem_cons_self, ?_⟩
        simp [hcalls, course_append_ok hnone]
      · rw [hfailed]
        exact hI.fire .unscheduled hkept'

/-- The first `k` results have come in. -/
theorem collect_recorded (hI : c.Keeps n I) (hbefore : results before = []) {k : Nat} (hk : k ≤ n)
    {s : τ} (hs : I said before s) :
    ∃ triggers, triggers.length = k ∧
      (collect c.recorded k (s, before)).Recorded I before said triggers := by
  unfold collect
  induction k with
  | zero =>
    refine ⟨[], rfl, rfl, fun _ => ⟨List.not_mem_nil, ?_⟩, fun r hr => (by cases hr), ?_⟩
    · simp
    · simpa [failed] using hs
  | succ k ih =>
    obtain ⟨triggers, hlength, h⟩ := ih (Nat.le_of_succ_le hk)
    obtain ⟨r, hr⟩ := step_recorded hI hbefore h (hlength ▸ hk)
    rw [hlength] at hr
    refine ⟨triggers ++ [r], by simp [hlength], ?_⟩
    rw [List.range_succ, List.foldl_append]
    exact hr

theorem unschedule_recorded (hI : c.Keeps n I) {s : Progress (τ × List Call)}
    (h : s.Recorded I before said triggers) :
    (unschedule c.recorded s).2.2 = before ++ course (unschedule c.recorded s).1 triggers ∧
      I (said ++ (failed triggers).map failureNote) (unschedule c.recorded s).2.2
        (unschedule c.recorded s).2.1 := by
  unfold unschedule
  cases hu : s.unscheduled with
  | some r => exact ⟨(h.done r hu).2, h.kept⟩
  | none =>
    obtain ⟨hnone, hcalls⟩ := h.pending hu
    refine ⟨?_, hI.fire .unscheduled h.kept⟩
    rw [course_of_all_failed hnone, ← List.append_assoc, ← hcalls]
    rfl

theorem supersede_recorded (hI : c.Keeps n I) (failures : List (Nat × Error)) (phase : Phase)
    {s : τ × List Call} (hs : I said s.2 s.1) :
    (supersede c.recorded failures phase.name s).2 = s.2 ∧
      I (said ++ superseded failures phase) s.2
        (supersede c.recorded failures phase.name s).1 := by
  unfold supersede superseded
  split
  · exact ⟨rfl, by rwa [List.append_nil]⟩
  · exact ⟨rfl, hI.note _ _ hs⟩

/-- The verdict when all phases went well. -/
theorem report_recorded (hI : c.Keeps n I) (triggers : List (Except Error Unit))
    {s : τ × List Call} (hs : I said s.2 s.1) :
    let r := report c.recorded (failed triggers) s
    r.1 = verdict { stopOnFinish := false } triggers (.ok ()) (.ok ()) ∧ r.2.2 = s.2 ∧
      I (said ++ reported (failed triggers) (c.invocations r.2.1)) s.2 r.2.1 := by
  unfold report verdict reported
  rcases failed triggers with _ | ⟨⟨i, first⟩, later⟩
  · refine ⟨rfl, rfl, ?_⟩
    have hsame := hI.invocations .info (completionNote (c.invocations s.1)).2 s.1
    refine (congrArg (fun n => I (said ++ [completionNote n]) s.2 _) hsame).mpr ?_
    exact hI.note _ _ hs
  · cases later with
    | nil => exact ⟨rfl, rfl, by rwa [List.append_nil]⟩
    | cons second later => exact ⟨rfl, rfl, hI.note _ _ hs⟩

/-- **A run that has all results** unschedules once, unless it did, and stops at most once. -/
theorem finish_recorded (hI : c.Keeps n I) {s : Progress (τ × List Call)}
    (h : s.Recorded I before said triggers) (options : RunOptions) :
    let r := finish c.recorded options s
    ∃ unscheduled stopped, r.1 = verdict options triggers unscheduled stopped ∧
      r.2.2 = before ++ course unscheduled triggers ++ ending options unscheduled stopped ∧
      I (said ++ (failed triggers).map failureNote ++
        closing options (failed triggers) unscheduled stopped (c.invocations r.2.1)) r.2.2 r.2.1 := by
  obtain ⟨hcalls, hkept⟩ := unschedule_recorded hI h
  unfold finish
  rw [h.failures]
  generalize unschedule c.recorded s = answer at hcalls hkept ⊢
  obtain ⟨unscheduled, state⟩ := answer
  dsimp only at hcalls hkept
  refine ⟨unscheduled, (c.recorded.fire .stopped state).1, ?_⟩
  unfold verdict ending closing
  cases unscheduled with
  | error e =>
    obtain ⟨hsame, hsaid⟩ := supersede_recorded hI (failed triggers) .unscheduled hkept
    refine ⟨rfl, ?_, ?_⟩
    · simpa [hcalls] using hsame
    · rw [← hsame] at hsaid
      exact hsaid
  | ok _ =>
    cases options.stopOnFinish with
    | false =>
      obtain ⟨hverdict, hsame, hsaid⟩ := report_recorded hI triggers hkept
      refine ⟨hverdict, ?_, ?_⟩
      · simpa [hcalls] using hsame
      · rw [← hsame] at hsaid
        exact hsaid
    | true =>
      have hfire : (c.recorded.fire .stopped state).2.2 =
          state.2 ++ [.fire .stopped (c.recorded.fire .stopped state).1] := rfl
      have hkept' : I _ (c.recorded.fire .stopped state).2.2
          (c.recorded.fire .stopped state).2.1 := hI.fire .stopped hkept
      simp only [if_true]
      generalize c.recorded.fire .stopped state = answer at hfire hkept' ⊢
      obtain ⟨stopped, state'⟩ := answer
      dsimp only at hfire hkept'
      cases stopped with
      | error e =>
        obtain ⟨hsame, hsaid⟩ := supersede_recorded hI (failed triggers) .stopped hkept'
        refine ⟨rfl, ?_, ?_⟩
        · simpa [hcalls, hfire] using hsame
        · rw [← hsame] at hsaid
          exact hsaid
      | ok _ =>
        obtain ⟨hverdict, hsame, hsaid⟩ := report_recorded hI triggers hkept'
        refine ⟨hverdict, ?_, ?_⟩
        · simpa [hcalls, hfire] using hsame
        · rw [← hsame] at hsaid
          exact hsaid

/-- **A run that gets to its triggers** takes in as many results as it was asked for. -/
theorem execute_recorded {options : RunOptions} (hI : c.Keeps options.iterations.toNat I)
    (hbefore : results before = []) {s : τ} (hs : I said before s) :
    let r := execute c.recorded options (s, before)
    ∃ triggers unscheduled stopped, triggers.length = options.iterations.toNat ∧
      r.1 = verdict options triggers unscheduled stopped ∧
      r.2.2 = before ++ course unscheduled triggers ++ ending options unscheduled stopped ∧
      I (said ++ (failed triggers).map failureNote ++
        closing options (failed triggers) unscheduled stopped (c.invocations r.2.1)) r.2.2 r.2.1 := by
  obtain ⟨triggers, hlength, h⟩ := collect_recorded hI hbefore (Nat.le_refl _) hs
  obtain ⟨unscheduled, stopped, hfinish⟩ := finish_recorded hI h options
  exact ⟨triggers, unscheduled, stopped, hlength, hfinish⟩

end

theorem drive_of_lt {c : Controls τ} {threads : Int} {options : RunOptions} {s : τ}
    (h : options.iterations < 1) :
    drive c threads options s = (.error (.configuration (.iterations options.iterations)), s) := by
  unfold drive
  rw [if_pos h]

/-- **What a run with at least one iteration may turn out to be**, what is noted in it, and what it
keeps. -/
theorem drive_recorded {c : Controls τ} {I : List Note → List Call → τ → Prop}
    {options : RunOptions} (hI : c.Keeps options.iterations.toNat I) (threads : Int) {s : τ}
    (hs : I [] [] s) (h : 1 ≤ options.iterations) :
    let r := drive c.recorded threads options (s, [])
    (options.schedule = true ∧ ∃ error, r.1 = .error error ∧
      r.2.2 = [.fire .scheduled (.error error)] ∧
      r.2.1 = (c.fire .scheduled (c.note .info (openingNote threads options).2 s)).2 ∧
      I [openingNote threads options] r.2.2 r.2.1) ∨
    ∃ triggers unscheduled stopped, triggers.length = options.iterations.toNat ∧
      r.1 = verdict options triggers unscheduled stopped ∧
      r.2.2 = (if options.schedule then [.fire .scheduled (.ok ())] else []) ++
        course unscheduled triggers ++ ending options unscheduled stopped ∧
      I ([openingNote threads options] ++ (failed triggers).map failureNote ++
        closing options (failed triggers) unscheduled stopped (c.invocations r.2.1)) r.2.2 r.2.1 := by
  have hge : ¬options.iterations < 1 := by omega
  have hopened : I [openingNote threads options] []
      (c.note .info (openingNote threads options).2 s) := hI.note .info _ hs
  unfold drive
  rw [if_neg hge]
  generalize htext : Text.join ["InvocationEngine::Run: ", Text.decimalInt options.iterations,
    " iteration(s) on ", Text.decimalInt threads, " thread(s)"] = text
  have hopening : openingNote threads options = (.info, text) :=
    congrArg (Prod.mk Log.Level.info) htext
  rw [hopening] at hopened ⊢
  have hnote : c.recorded.note .info text (s, []) = (c.note .info text s, []) := rfl
  dsimp only at hopened
  rw [hnote]
  generalize c.note .info text s = s at hopened ⊢
  cases options.schedule with
  | false => exact .inr (execute_recorded hI rfl hopened)
  | true =>
    have hfire : c.recorded.fire .scheduled (s, []) = ((c.fire .scheduled s).1,
        (c.fire .scheduled s).2, [.fire .scheduled (c.fire .scheduled s).1]) := rfl
    have hfired := hI.fire .scheduled hopened
    simp only [if_true]
    rw [hfire]
    generalize c.fire .scheduled s = answer at hfired ⊢
    obtain ⟨r, s⟩ := answer
    dsimp only at hfired
    cases r with
    | error error => exact .inl ⟨trivial, error, rfl, rfl, rfl, hfired⟩
    | ok _ => exact .inr (execute_recorded hI rfl hfired)

/-- **What a run with at least one iteration may turn out to be**, with its calls and its notes. -/
theorem drive_cases {c : Controls τ} {I : List Note → List Call → τ → Prop} {options : RunOptions}
    (hI : c.Keeps options.iterations.toNat I) (threads : Int) {s : τ} (hs : I [] [] s)
    (h : 1 ≤ options.iterations) :
    let r := drive c threads options s
    let calls := (drive c.recorded threads options (s, [])).2.2
    let notes := (drive c.noted threads options (s, [])).2.2
    I notes calls r.2 ∧
    ((options.schedule = true ∧ ∃ error,
      r = (.error error, (c.fire .scheduled (c.note .info (openingNote threads options).2 s)).2) ∧
      calls = [.fire .scheduled (.error error)] ∧ notes = [openingNote threads options]) ∨
    ∃ triggers unscheduled stopped, triggers.length = options.iterations.toNat ∧
      r.1 = verdict options triggers unscheduled stopped ∧
      calls = (if options.schedule then [.fire .scheduled (.ok ())] else []) ++
        course unscheduled triggers ++ ending options unscheduled stopped ∧
      notes = [openingNote threads options] ++ (failed triggers).map failureNote ++
        closing options (failed triggers) unscheduled stopped (c.invocations r.2)) := by
  intro r calls notes
  -- all is written down in one run, with which the other three agree
  obtain ⟨hboth, hbothState⟩ := drive_agrees (recorded_simulates c.noted) threads options
    (t := ((s, []), [])) (s := (s, [])) rfl
  obtain ⟨hnoted, hnotedState⟩ := drive_agrees (noted_simulates c) threads options
    (t := (s, [])) (s := s) rfl
  obtain ⟨-, -, hcallsAgree⟩ := drive_agrees (noted_simulates c).recorded threads options
    (t := ((s, []), [])) (s := (s, [])) ⟨rfl, rfl⟩
  have houtcome := hboth.trans hnoted
  have hstate := (congrArg Prod.fst hbothState).trans hnotedState
  have hnotes : _ = notes := congrArg Prod.snd hbothState
  have hcases := drive_recorded hI.noted threads (s := (s, [])) ⟨rfl, hs⟩ h
  change _ = calls at hcallsAgree
  change _ = r.1 at houtcome
  change _ = r.2 at hstate
  dsimp only at hcases
  rw [houtcome, hcallsAgree, hnotes] at hcases
  obtain ⟨hschedule, error, herror, hcalls, hfinal, hsaid, hkept⟩ | ⟨triggers, unscheduled, stopped,
    hlength, hverdict, hcalls, hsaid, hkept⟩ := hcases
  · rw [hstate] at hkept
    rw [hfinal] at hstate
    exact ⟨hsaid ▸ hkept, .inl ⟨hschedule, error, Prod.ext herror hstate.symm, hcalls, hsaid⟩⟩
  · have hcount : c.noted.invocations (drive c.noted.recorded threads options ((s, []), [])).2.1 =
        c.invocations r.2 := congrArg c.invocations hstate
    rw [hcount] at hsaid hkept
    rw [hstate] at hkept
    exact ⟨hsaid ▸ hkept, .inr ⟨triggers, unscheduled, stopped, hlength, hverdict, hcalls, hsaid⟩⟩

end Engine

end ProcessorBench
