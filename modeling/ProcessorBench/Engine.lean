import ProcessorBench.Engine.Crew

/-!
# The engine

The engine has a processor triggered a number of times and turns what happened into one outcome.  It
knows the processor only as a `Plant`: something that can be triggered, told about a phase, and
noted about.  A crew triggers it; the engine waits for the results in the order in which it posted
the triggers, whichever of them ends first.  The first success unschedules the plant, while other
triggers may still be at work; if there is none, it is unscheduled at the end.  A failed phase
outweighs failed triggers, and all failed triggers are reported together.
-/

namespace ProcessorBench

/-- How a run goes. -/
structure RunOptions where
  iterations : Int := 1
  /-- Stop the plant at the end. -/
  stopOnFinish : Bool := true
  /-- Schedule the plant at the beginning. -/
  schedule : Bool := true
  deriving DecidableEq, Repr, Inhabited

structure Engine where
  /-- The processor must not be triggered by several threads at once. -/
  serial : Bool := false
  threads : Int := 1
  /-- There is a thread. -/
  manned : 1 ≤ threads := by decide
  /-- How often the processor was triggered. -/
  invocations : UInt64 := 0
  deriving DecidableEq, Repr

instance : Inhabited Engine := ⟨{}⟩

/-- What the engine can do in a run: wait for the result of a trigger, told by its number, and deal
with the plant. -/
structure Controls (τ : Type) where
  await : Nat → τ → Except Error Unit × τ
  fire : Phase → τ → Except Error Unit × τ
  note : Log.Level → Text → τ → τ
  /-- How often the plant was triggered. -/
  invocations : τ → UInt64

/-- The engine deals with a plant while a crew of so many threads works on it. -/
def Crew.controls {σ δ : Type} (p : Plant σ δ) (threads : Nat) (turns : Turns) :
    Controls (Crew σ δ) where
  await := await p threads turns
  fire phase c :=
    let (r, plant) := p.fire phase c.plant
    (r, { c with plant })
  note level text c := { c with plant := p.note level text c.plant }
  invocations c := c.invocations

namespace Engine

def logger : Text := "InvocationEngine"

/-- An engine with a single thread, for a processor that may be serial. -/
def single (serial : Bool) : Engine := { serial }

/-- Sets the number of threads: at least one, and only one for a serial processor. -/
def setThreads (e : Engine) (n : Int) : Except Error Engine :=
  if h : n < 1 then .error (.configuration (.threads n))
  else if 1 < n && e.serial then .error (.configuration (.serialThreads n))
  else .ok { e with threads := n, manned := Int.not_lt.1 h }

/-- Where a run stands while the results of its triggers come in. -/
structure Progress (τ : Type) where
  state : τ
  /-- The failed iterations so far, in order. -/
  failures : List (Nat × Error) := []
  /-- How the plant took being unscheduled, once it was. -/
  unscheduled : Option (Except Error Unit) := none

section

variable {τ : Type}

/-- Takes in the result of iteration `i`. -/
def step (c : Controls τ) (s : Progress τ) (i : Nat) : Progress τ :=
  match c.await i s.state with
  | (.error e, state) =>
    { s with
      state := c.note .error (Text.join ["InvocationEngine::Run: iteration ", Text.decimal i,
        " failed: ", e.describe]) state
      failures := s.failures ++ [(i, e)] }
  | (.ok (), state) =>
    match s.unscheduled with
    | some _ => { s with state }
    | none =>
      let (r, state) := c.fire .unscheduled state
      { s with state, unscheduled := some r }

/-- Takes in the results of all triggers of a run, in order. -/
def collect (c : Controls τ) (n : Nat) (state : τ) : Progress τ :=
  (List.range n).foldl (step c) { state }

/-- Unschedules the plant if no success did. -/
def unschedule (c : Controls τ) (s : Progress τ) : Except Error Unit × τ :=
  match s.unscheduled with
  | some r => (r, s.state)
  | none => c.fire .unscheduled s.state

/-- Notes that failed triggers are not reported because a phase failed. -/
def supersede (c : Controls τ) (failures : List (Nat × Error)) (phase : Text) (state : τ) : τ :=
  if failures.isEmpty then state
  else c.note .error (Text.join ["InvocationEngine::Run: ", Text.decimal failures.length,
    " trigger failure(s) are superseded by the ", phase, " failure"]) state

/-- The outcome when all phases went well. -/
def report (c : Controls τ) (failures : List (Nat × Error)) (state : τ) :
    Except Error Unit × τ :=
  match failures with
  | [] => (.ok (), c.note .info (Text.join ["InvocationEngine::Run: completed, ",
      Text.decimal (c.invocations state).toNat, " invocation(s) in total"]) state)
  | (i, first) :: later =>
    let e : Error := .triggers i first later
    if later.isEmpty then (.error e, state)
    else (.error e, c.note .error (Text.join ["InvocationEngine::Run: ",
      Text.decimal failures.length, " iterations failed:\n", e.report]) state)

/-- The end of a run whose triggers are done. -/
def finish (c : Controls τ) (options : RunOptions) (s : Progress τ) : Except Error Unit × τ :=
  match unschedule c s with
  | (.error e, state) => (.error e, supersede c s.failures Phase.unscheduled.name state)
  | (.ok (), state) =>
    if options.stopOnFinish then
      match c.fire .stopped state with
      | (.error e, state) => (.error e, supersede c s.failures Phase.stopped.name state)
      | (.ok (), state) => report c s.failures state
    else report c s.failures state

/-- The triggers of a run and its end. -/
def execute (c : Controls τ) (options : RunOptions) (state : τ) : Except Error Unit × τ :=
  finish c options (collect c options.iterations.toNat state)

/-- A run, in so far as its controls tell of it. -/
def drive (c : Controls τ) (threads : Int) (options : RunOptions) (state : τ) :
    Except Error Unit × τ :=
  if options.iterations < 1 then
    (.error (.configuration (.iterations options.iterations)), state)
  else
    let state := c.note .info (Text.join ["InvocationEngine::Run: ",
      Text.decimalInt options.iterations, " iteration(s) on ", Text.decimalInt threads,
      " thread(s)"]) state
    if options.schedule then
      match c.fire .scheduled state with
      | (.error error, state) => (.error error, state)
      | (.ok (), state) => execute c options state
    else execute c options state

end

variable {σ δ : Type}

/-- The crew of a run.  No job has a turn before the engine waits for a result. -/
def crew (e : Engine) (options : RunOptions) (plant : σ) : Crew σ δ :=
  { plant, jobs := .replicate options.iterations.toNat .posted, invocations := e.invocations }

/-- What the engine can do while the jobs of its crew have these turns. -/
def controls (e : Engine) (p : Plant σ δ) (turns : Crew.Turns) : Controls (Crew σ δ) :=
  Crew.controls p e.threads.toNat turns

/-- Runs the plant, while the jobs of the crew have these turns. -/
def run (e : Engine) (p : Plant σ δ) (options : RunOptions) (turns : Crew.Turns) (plant : σ) :
    Except Error Unit × Engine × σ :=
  let (outcome, crew) := drive (e.controls p turns) e.threads options (e.crew options plant)
  (outcome, { e with invocations := crew.invocations }, crew.plant)

end Engine

end ProcessorBench
