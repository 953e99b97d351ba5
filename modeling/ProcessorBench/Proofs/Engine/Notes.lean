import Mathlib.Data.List.Permutation
import ProcessorBench.Proofs.Engine.Crew
import ProcessorBench.Proofs.Property.Integer

/-!
# What a run notes of its failures

The engine turns many failures into one outcome, so some of them are told by its notes alone.
`Plant.Says` tells how states of a plant show what was noted, also while threads work on it.

* `Engine.run_shows_notes` — a run leaves the plant in a state that shows its notes.
* `Engine.phases_cases` — what is noted at the end of a run, given how its phases went.
* `Engine.failures_noted` — every failed trigger of a run has its note, and nothing is lost without
  a note.
-/

set_option autoImplicit false

namespace ProcessorBench

variable {σ δ : Type}

/-- Whatever others do to the state in the meantime, no step of the procedure breaks what holds of
it. -/
inductive Procedure.Keeps {ι : Type} (effect : δ → σ → σ) (N : ι → σ → Prop) :
    Procedure σ δ → Prop where
  | done (result : Except Error Unit) : Keeps effect N (.done result)
  | step (deed : δ) (next : σ → Procedure σ δ) (hdeed : ∀ i s, N i s → N i (effect deed s))
      (hnext : ∀ i s, N i s → Keeps effect N (next s)) : Keeps effect N (.step deed next)

namespace Plant

open Controls (Note)

/-- States of the plant show what was noted: each note adds itself to what they show, and nothing
else that is done to the plant changes it. -/
structure Says (p : Plant σ δ) (N : List Note → σ → Prop) : Prop where
  trigger : ∀ {notes s}, N notes s → (p.trigger s).Keeps p.effect N
  fire : ∀ {notes s} (phase : Phase), N notes s → N notes (p.fire phase s).2
  note : ∀ {notes s} (level : Log.Level) (text : Text), N notes s →
    N (notes ++ [(level, text)]) (p.note level text s)

/-- The state shows what was noted, and what is left of the jobs will not change that. -/
structure Shows (p : Plant σ δ) (N : List Note → σ → Prop) (notes : List Note) (c : Crew σ δ) :
    Prop where
  plant : N notes c.plant
  jobs : ∀ rest, .working rest ∈ c.jobs → rest.Keeps p.effect N

variable {p : Plant σ δ} {N : List Note → σ → Prop} {notes : List Note} {c : Crew σ δ}

theorem Shows.set (h : p.Shows N notes c) {plant : σ} (hplant : N notes plant) (i : Nat)
    {job : Job σ δ} (hjob : ∀ rest, job = .working rest → rest.Keeps p.effect N)
    (invocations : UInt64) :
    p.Shows N notes { plant, jobs := c.jobs.set i job, invocations } where
  plant := hplant
  jobs rest hrest := by
    rcases List.mem_or_eq_of_mem_set hrest with hold | hnew
    · exact h.jobs rest hold
    · exact hjob rest hnew.symm

theorem Says.kept (hN : p.Says N) (threads : Nat) : Crew.Kept p threads (p.Shows N) where
  step hstep h := by
    cases hstep with
    | start i =>
      exact h.set h.plant i (by
        rintro _ ⟨⟩
        exact hN.trigger h.plant) _
    | proceed i rest hworking =>
      have hrest := h.jobs rest (List.mem_of_getElem? hworking)
      cases hrest with
      | done result => exact h.set h.plant i (by rintro _ ⟨⟩) _
      | step deed next hdeed hnext =>
        exact h.set (hdeed _ _ h.plant) i (by
          rintro _ ⟨⟩
          exact hnext _ _ h.plant) _
  fire phase h := ⟨hN.fire phase h.plant, h.jobs⟩
  note level text h := ⟨hN.note level text h.plant, h.jobs⟩

end Plant

namespace Engine

open Controls

/-- A run leaves the plant in a state that shows what was noted. -/
theorem run_shows_notes {p : Plant σ δ} {N : List Note → σ → Prop} (hN : p.Says N) (e : Engine)
    (options : RunOptions) (turns : Crew.Turns) {s : σ} (hs : N [] s) :
    N (e.notes p options turns s) (e.run p options turns s).2.2 :=
  (run_keeps (hN.kept e.threads.toNat) _ _ _ ⟨hs, fun _ hrest =>
    nomatch List.eq_of_mem_replicate hrest⟩).plant

/-! ## The phases of a run -/

theorem fire_mem_course {unscheduled result : Except Error Unit} {phase : Phase}
    {triggers : List (Except Error Unit)} :
    .fire phase result ∈ course unscheduled triggers ↔
      phase = .unscheduled ∧ result = unscheduled := by
  induction triggers with
  | nil => simp [course]
  | cons r rest ih =>
    cases r with
    | error _ => simp [course, ih]
    | ok _ => simp [course]

theorem fire_mem_ending {options : RunOptions} {unscheduled stopped result : Except Error Unit}
    {phase : Phase} :
    .fire phase result ∈ ending options unscheduled stopped ↔
      unscheduled = .ok () ∧ options.stopOnFinish = true ∧ phase = .stopped ∧ result = stopped := by
  unfold ending
  cases unscheduled with
  | error _ => simp
  | ok _ => cases options.stopOnFinish <;> simp

/-- A phase failed among the calls. -/
def Failed (calls : List Call) (phase : Phase) (error : Error) : Prop :=
  .fire phase (.error error) ∈ calls

/-- **How the phases went once the triggers were done.**  The first one that failed ends the run,
and any failed triggers are superseded by it; if none failed, the failed triggers are reported. -/
theorem phases_cases {options : RunOptions} {triggers : List (Except Error Unit)}
    {unscheduled stopped : Except Error Unit} (invocations : UInt64) {calls : List Call}
    (hcalls : calls = (if options.schedule then [.fire .scheduled (.ok ())] else []) ++
      course unscheduled triggers ++ ending options unscheduled stopped) :
    (∃ phase error, (phase = .unscheduled ∨ phase = .stopped) ∧
      (∀ phase' error', Failed calls phase' error' ↔ phase' = phase ∧ error' = error) ∧
      verdict options triggers unscheduled stopped = .error error ∧
      closing options (failed triggers) unscheduled stopped invocations =
        superseded (failed triggers) phase) ∨
    (∀ phase error, ¬Failed calls phase error) ∧
      verdict options triggers unscheduled stopped =
        verdict { stopOnFinish := false } triggers (.ok ()) (.ok ()) ∧
      closing options (failed triggers) unscheduled stopped invocations =
        reported (failed triggers) invocations := by
  have hfailed : ∀ phase error, Failed calls phase error ↔
      (phase = .unscheduled ∧ .error error = unscheduled) ∨
      unscheduled = .ok () ∧ options.stopOnFinish = true ∧ phase = .stopped ∧
        .error error = stopped := by
    intro phase error
    unfold Failed
    rw [hcalls, List.mem_append, List.mem_append, fire_mem_course, fire_mem_ending]
    have hscheduled : .fire phase (.error error) ∉
        (if options.schedule then [Call.fire .scheduled (.ok ())] else []) := by
      split <;> simp
    simp [hscheduled]
  unfold verdict closing
  cases unscheduled with
  | error e =>
    refine .inl ⟨.unscheduled, e, .inl rfl, fun phase error => ?_, rfl, rfl⟩
    simp [hfailed]
  | ok _ =>
    cases hstop : options.stopOnFinish with
    | false =>
      refine .inr ⟨fun phase error => ?_, rfl, rfl⟩
      simp [hfailed, hstop]
    | true =>
      cases stopped with
      | error e =>
        refine .inl ⟨.stopped, e, .inr rfl, fun phase error => ?_, rfl, rfl⟩
        simp [hfailed, hstop]
      | ok _ =>
        refine .inr ⟨fun phase error => ?_, rfl, rfl⟩
        simp [hfailed]

/-! ## How notes begin -/

/-- How a note on a failed iteration begins. -/
def failureHeading (i : Nat) : Text :=
  Text.join ["InvocationEngine::Run: iteration ", Text.decimal i, " failed: "]

/-- The note tells that the iteration failed. -/
def tellsFailure (i : Nat) (note : Note) : Bool :=
  note.1 = .error && (failureHeading i).isPrefixOf note.2

/-- The note tells that the run went well. -/
def tellsCompletion (note : Note) : Bool :=
  note.1 = .info && (Text.ofString "InvocationEngine::Run: completed, ").isPrefixOf note.2

theorem tellsFailure_error (i : Nat) (text : Text) :
    tellsFailure i (.error, text) = (failureHeading i).isPrefixOf text := by
  simp [tellsFailure]

theorem tellsCompletion_info (text : Text) : tellsCompletion (.info, text) =
    (Text.ofString "InvocationEngine::Run: completed, ").isPrefixOf text := by
  simp [tellsCompletion]

/-- Behind what all notes have in common, a number does not begin like a word. -/
theorem not_isPrefixOf_of_number {word number : Text} {rest : List Text} {w : UInt8} {n : Int}
    (hword : Text.ofString "InvocationEngine::Run: " ++ [w] <+: word) (hletter : 57 < w)
    (hnumber : Integer.Denotes number n) :
    word.isPrefixOf (Text.join ("InvocationEngine::Run: " :: number :: rest)) = false := by
  rw [Bool.eq_false_iff]
  intro h
  have hprefix := hword.trans (List.isPrefixOf_iff_prefix.1 h)
  rw [Text.join, List.flatten_cons, List.flatten_cons, List.prefix_append_right_inj] at hprefix
  cases number with
  | nil => exact Integer.not_denotes_nil hnumber
  | cons b t =>
    have hb : w = b := (List.cons_prefix_cons.1 hprefix).1
    subst hb
    rcases hnumber.digit_or_minus w List.mem_cons_self with hdigit | rfl
    · exact UInt8.not_le.2 hletter hdigit.2
    · exact absurd hletter (by decide)

theorem failureNote_eq (failure : Nat × Error) :
    failureNote failure = (.error, failureHeading failure.1 ++ failure.2.describe) := by
  simp [failureNote, failureHeading, Text.join]

/-- A note on a failed trigger tells of no other one. -/
theorem tellsFailure_failureNote (i : Nat) (failure : Nat × Error) :
    tellsFailure i (failureNote failure) = decide (failure.1 = i) := by
  rw [failureNote_eq, tellsFailure_error, Bool.eq_iff_iff, List.isPrefixOf_iff_prefix,
    decide_eq_true_eq]
  constructor
  · intro h
    simp only [failureHeading, Text.join, List.flatten_cons, List.flatten_nil, List.append_nil,
      List.append_assoc, List.prefix_append_right_inj] at h
    -- in both texts a blank ends the number
    have hsame := (Integer.isNumeral_decimal i).1.eq_of_continues
      (Integer.isNumeral_decimal failure.1).1 (b := 32) (c := 32) (by decide) (by decide) h
    exact (Integer.decimal_injective hsame).symm
  · rintro rfl
    exact List.prefix_append _ _

/-- The failed triggers with one number are the one trigger that has it, if that failed. -/
theorem filter_failed (triggers : List (Except Error Unit)) (i : Nat) :
    (failed triggers).filter (fun failure => failure.1 = i) =
      match triggers[i]? with
      | some (.error error) => [(i, error)]
      | _ => [] := by
  induction triggers using List.reverseRecOn with
  | nil => rfl
  | append_singleton rest r ih =>
    rw [failed_append, List.filter_append, ih]
    rcases Nat.lt_trichotomy i rest.length with h | rfl | h
    · have hne : rest.length ≠ i := h.ne'
      rw [List.getElem?_append_left h]
      cases r <;> simp [hne]
    · cases r <;> simp
    · have hne : rest.length ≠ i := h.ne
      rw [List.getElem?_eq_none h.le, List.getElem?_eq_none (by simpa using h)]
      cases r <;> simp [hne]

/-! ## Telling notes apart -/

section

variable {threads : Int} {options : RunOptions} {triggers : List (Except Error Unit)}
  {rest : List Note}

/-- Where other notes have a number, a note on a failed iteration has a letter, an `i`. -/
theorem letter_failureHeading (i : Nat) :
    Text.ofString "InvocationEngine::Run: " ++ [105] <+: failureHeading i := by
  have hword : Text.ofString "InvocationEngine::Run: " ++ [105] <+:
      Text.ofString "InvocationEngine::Run: iteration " := by decide
  rw [failureHeading, Text.join, List.flatten_cons]
  exact hword.trans (List.prefix_append _ _)

theorem tellsFailure_supersededNote (i count : Nat) (phase : Phase) :
    tellsFailure i (supersededNote count phase) = false := by
  rw [supersededNote, tellsFailure_error]
  exact not_isPrefixOf_of_number (letter_failureHeading i) (by decide) (Integer.denotes_decimal _)

theorem tellsFailure_listingNote (i : Nat) (error : Error) :
    tellsFailure i (listingNote error) = false := by
  rw [listingNote, tellsFailure_error]
  exact not_isPrefixOf_of_number (letter_failureHeading i) (by decide) (Integer.denotes_decimal _)

theorem tellsCompletion_openingNote (threads : Int) (options : RunOptions) :
    tellsCompletion (openingNote threads options) = false := by
  rw [openingNote, tellsCompletion_info]
  -- where the note at the end has a `c`, this one has a digit or a minus sign
  exact not_isPrefixOf_of_number (w := 99) (by decide) (by decide) (Integer.denotes_decimalInt _)

theorem tellsCompletion_completionNote (invocations : UInt64) :
    tellsCompletion (completionNote invocations) = true := by
  rw [completionNote, tellsCompletion_info, List.isPrefixOf_iff_prefix, Text.join,
    List.flatten_cons]
  exact List.prefix_append _ _

theorem filter_tellsFailure_superseded (i : Nat) (failures : List (Nat × Error)) (phase : Phase) :
    (superseded failures phase).filter (tellsFailure i) = [] := by
  unfold superseded
  split
  · rfl
  · rw [List.filter_cons, tellsFailure_supersededNote]
    rfl

theorem filter_tellsFailure_reported (i : Nat) (failures : List (Nat × Error))
    (invocations : UInt64) : (reported failures invocations).filter (tellsFailure i) = [] := by
  rcases failures with _ | ⟨⟨j, first⟩, _ | ⟨second, later⟩⟩
  · rfl
  · rfl
  · have hsilent := tellsFailure_listingNote i (.triggers j first (second :: later))
    simp [reported, hsilent]

/-- The notes of a run tell of a failed trigger once, if what is noted at the end tells of none. -/
theorem filter_tellsFailure_notes {i : Nat} (hrest : rest.filter (tellsFailure i) = []) :
    ([openingNote threads options] ++ (failed triggers).map failureNote ++ rest).filter
        (tellsFailure i) =
      match triggers[i]? with
      | some (.error error) => [failureNote (i, error)]
      | _ => [] := by
  have hopening : [openingNote threads options].filter (tellsFailure i) = [] := rfl
  have hsame : tellsFailure i ∘ failureNote = fun failure => decide (failure.1 = i) := by
    funext failure
    rw [Function.comp_apply, tellsFailure_failureNote]
  rw [List.filter_append, List.filter_append, hopening, hrest, List.filter_map, hsame,
    filter_failed, List.nil_append, List.append_nil]
  split <;> rfl

/-- Of the notes of a run, only those at the end may tell that it went well. -/
theorem filter_tellsCompletion_notes :
    ([openingNote threads options] ++ (failed triggers).map failureNote ++ rest).filter tellsCompletion =
      rest.filter tellsCompletion := by
  have hopening : [openingNote threads options].filter tellsCompletion = [] := by
    rw [List.filter_cons, tellsCompletion_openingNote]
    rfl
  have hnever : tellsCompletion ∘ failureNote = fun _ => false := rfl
  rw [List.filter_append, List.filter_append, hopening, List.filter_map, hnever]
  simp

/-- The notes on errors. -/
def onErrors (notes : List Note) : List Note := notes.filter fun note => note.1 = .error

theorem onErrors_notes :
    onErrors ([openingNote threads options] ++ (failed triggers).map failureNote ++ rest) =
      (failed triggers).map failureNote ++ onErrors rest := by
  have hopening : onErrors [openingNote threads options] = [] := rfl
  have hall : onErrors ((failed triggers).map failureNote) = (failed triggers).map failureNote := by
    unfold onErrors
    rw [List.filter_eq_self]
    intro note hnote
    obtain ⟨failure, -, rfl⟩ := List.mem_map.1 hnote
    rfl
  unfold onErrors at hopening hall ⊢
  rw [List.filter_append, List.filter_append, hopening, hall, List.nil_append]

end

/-- What the notes and the outcome of a run tell of the results of its triggers. -/
structure Accounts (results : List (Except Error Unit)) (calls : List Call)
    (outcome : Except Error Unit) (invocations : UInt64) (notes : List Note) : Prop where
  /-- The failed triggers are those whose result is an error, in the order of their numbers. -/
  failures : (∀ i error, (i, error) ∈ failed results ↔ results[i]? = some (.error error)) ∧
    (failed results).Pairwise fun a b => a.1 < b.1
  /-- There is one note on each failed trigger, with its number and its error, and none on a
  success. -/
  iteration : ∀ i, notes.filter (tellsFailure i) =
    match results[i]? with
    | some (.error error) => [failureNote (i, error)]
    | _ => []
  /-- If a phase failed, the run ends with that.  Behind the notes on the failed triggers, if there
  are any, one note on an error tells that so many are superseded. -/
  superseded : ∀ phase error, Failed calls phase error →
    (phase = .unscheduled ∨ phase = .stopped) ∧ outcome = .error error ∧
    onErrors notes = (failed results).map failureNote ++
      if failed results = [] then [] else [supersededNote (failed results).length phase]
  /-- If no phase failed, the run ends with all failed triggers.  Behind the notes on them, if there
  are several, one note on an error lists them all. -/
  reported : (∀ phase error, ¬Failed calls phase error) →
    match failed results with
    | [] => outcome = .ok () ∧ onErrors notes = []
    | [(i, error)] => outcome = .error (.triggers i error []) ∧
      onErrors notes = [failureNote (i, error)]
    | (i, first) :: later => outcome = .error (.triggers i first later) ∧
      onErrors notes = (failed results).map failureNote ++
        [listingNote (.triggers i first later)]
  /-- A note tells that the run went well exactly if it did. -/
  completion : notes.filter tellsCompletion =
    if outcome.isOk then [completionNote invocations] else []

section

variable {threads : Int} {options : RunOptions} {triggers : List (Except Error Unit)}
  {calls : List Call} (invocations : UInt64)

/-- A run whose phase failed accounts for its failed triggers by telling how many are superseded. -/
theorem accounts_of_failed {phase : Phase} {error : Error}
    (hphase : phase = .unscheduled ∨ phase = .stopped)
    (hfailed : ∀ phase' error', Failed calls phase' error' ↔ phase' = phase ∧ error' = error) :
    Accounts triggers calls (.error error) invocations
      ([openingNote threads options] ++ (failed triggers).map failureNote ++
        superseded (failed triggers) phase) where
  failures := ⟨fun _ _ => mem_failed, failed_ascending triggers⟩
  iteration i := filter_tellsFailure_notes (filter_tellsFailure_superseded i _ phase)
  superseded phase' error' h := by
    obtain ⟨rfl, rfl⟩ := (hfailed phase' error').1 h
    refine ⟨hphase, rfl, ?_⟩
    rw [onErrors_notes]
    cases failed triggers <;> rfl
  reported h := absurd ((hfailed phase error).2 ⟨rfl, rfl⟩) (h phase error)
  completion := by
    rw [filter_tellsCompletion_notes]
    unfold superseded
    split <;> rfl

/-- A run whose phases went well accounts for its failed triggers by its outcome. -/
theorem accounts_of_not_failed (hfailed : ∀ phase error, ¬Failed calls phase error) :
    Accounts triggers calls (verdict { stopOnFinish := false } triggers (.ok ()) (.ok ()))
      invocations
      ([openingNote threads options] ++ (failed triggers).map failureNote ++
        reported (failed triggers) invocations) where
  failures := ⟨fun _ _ => mem_failed, failed_ascending triggers⟩
  iteration i := filter_tellsFailure_notes (filter_tellsFailure_reported i _ invocations)
  superseded phase error h := absurd h (hfailed phase error)
  reported _ := by
    rw [onErrors_notes]
    unfold verdict
    rcases failed triggers with _ | ⟨⟨i, first⟩, _ | ⟨second, later⟩⟩
    · exact ⟨rfl, rfl⟩
    · exact ⟨rfl, rfl⟩
    · exact ⟨rfl, rfl⟩
  completion := by
    rw [filter_tellsCompletion_notes]
    unfold verdict
    rcases failed triggers with _ | ⟨⟨i, first⟩, _ | ⟨second, later⟩⟩
    · rw [reported, List.filter_cons, tellsCompletion_completionNote]
      rfl
    · rfl
    · rfl

end

/-- **No failed trigger goes without a note.**  A run that gets to its triggers notes each one that
failed, with its number and its error, in order, and no success.  If being unscheduled or being
stopped fails, the run ends with that, and one more note on an error tells how many failed triggers
are superseded by it, if there are any.  Else the run ends with all failed triggers, and if there
are several, one more note on an error lists them.  That the run went well is noted exactly if it
did.  The state that the run leaves shows all these notes. -/
theorem failures_noted {e : Engine} {p : Plant σ δ} {options : RunOptions} {turns : Crew.Turns}
    {s : σ} (hreached : e.results p options turns s ≠ []) :
    Accounts (e.results p options turns s) (e.calls p options turns s)
      (e.run p options turns s).1 (e.run p options turns s).2.1.invocations
      (e.notes p options turns s) ∧
    ∀ N : List Note → σ → Prop, p.Says N → N [] s →
      N (e.notes p options turns s) (e.run p options turns s).2.2 := by
  refine ⟨?_, fun N hN hs => run_shows_notes hN e options turns hs⟩
  obtain ⟨-, hnone, -⟩ | ⟨-, -, -, unscheduled, stopped, hcalls, hrun, hnotes⟩ :=
    run_results e p options turns s
  · exact absurd hnone hreached
  rw [hrun, hnotes]
  dsimp only
  obtain ⟨phase, error, hphase, hfailed, hverdict, hclosing⟩ | ⟨hfailed, hverdict, hclosing⟩ :=
    phases_cases (e.invocations + .ofNat options.iterations.toNat) hcalls
  · rw [hverdict, hclosing]
    exact accounts_of_failed _ hphase hfailed
  · rw [hverdict, hclosing]
    exact accounts_of_not_failed _ hfailed

/-- Two of three triggers fail, and then being stopped does.  Two threads work on them: the second
trigger begins after the first one, and ends before it. -/
theorem failures_noted_of_failed_stop :
    ∃ (p : Plant Nat Unit) (e : Engine) (turns : Crew.Turns), e.threads = 2 ∧
      e.results p { iterations := 3 } turns 0 =
        [.error .foreign, .ok (), .error .unboundTarget] ∧
      (e.run p { iterations := 3 } turns 0).1 = .error .foreign ∧
      onErrors (e.notes p { iterations := 3 } turns 0) =
        [failureNote (0, .foreign), failureNote (2, .unboundTarget), supersededNote 2 .stopped] := by
  -- a trigger fails with what it finds, if others took steps before
  let p : Plant Nat Unit :=
    { trigger := fun _ => .step () fun n => .done
        (if n = 0 then .ok () else if n = 1 then .error .foreign else .error .unboundTarget)
      effect := fun _ n => n + 1
      fire := fun phase n => (if phase = .stopped then .error .foreign else .ok (), n)
      note := fun _ _ n => n }
  let e : Engine := { threads := 2 }
  let turns : Crew.Turns := fun i => if i = 0 then [0, 1, 1, 1, 0] else []
  have hresults : e.results p { iterations := 3 } turns 0 =
      [.error .foreign, .ok (), .error .unboundTarget] := by cbv
  have hreached : e.results p { iterations := 3 } turns 0 ≠ [] := by simp [hresults]
  have hcalls : e.calls p { iterations := 3 } turns 0 =
      [.fire .scheduled (.ok ()), .trigger (.error .foreign), .trigger (.ok ()),
        .fire .unscheduled (.ok ()), .trigger (.error .unboundTarget),
        .fire .stopped (.error .foreign)] := by cbv
  have hstopped : Failed (e.calls p { iterations := 3 } turns 0) .stopped .foreign := by
    simp [Failed, hcalls]
  obtain ⟨-, houtcome, hnotes⟩ := (failures_noted hreached).1.superseded .stopped .foreign hstopped
  rw [hresults] at hnotes
  exact ⟨p, e, turns, rfl, hresults, houtcome, hnotes⟩

end Engine

end ProcessorBench
