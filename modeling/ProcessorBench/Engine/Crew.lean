import ProcessorBench.Engine.Procedure
import ProcessorBench.Lifecycle.Phase
import ProcessorBench.Log

/-!
# The crew

The engine does not trigger its plant itself.  It posts as many jobs as the plant is to be triggered,
and a crew of threads works on them: each thread takes the job that was posted first, and does it to
the end before it takes another one.  The threads work at the same time on one state, step by step,
in an order that nobody knows.  That order is told by `Crew.Turns`, which may be anything.
-/

namespace ProcessorBench

/-- What the engine drives, with its state. -/
structure Plant (σ δ : Type) where
  /-- What is to be done when the plant is triggered. -/
  trigger : σ → Procedure σ δ
  /-- What a deed does to the state. -/
  effect : δ → σ → σ
  fire : Phase → σ → Except Error Unit × σ
  note : Log.Level → Text → σ → σ

/-- How far a job has come. -/
inductive Job (σ δ : Type) where
  | posted
  /-- A thread is at it, and has this left to do. -/
  | working (rest : Procedure σ δ)
  | ended (result : Except Error Unit)

namespace Job

variable {σ δ : Type}

def isPosted : Job σ δ → Bool
  | posted => true
  | _ => false

def isWorking : Job σ δ → Bool
  | working _ => true
  | _ => false

end Job

/-- The jobs of a run, with the state that they work on. -/
structure Crew (σ δ : Type) where
  plant : σ
  jobs : List (Job σ δ)
  /-- How often the plant was triggered. -/
  invocations : UInt64

namespace Crew

/-- Before the result with a given number is taken in, threads go on with these jobs, in this
order: the same number twice means two steps. -/
abbrev Turns := Nat → List Nat

variable {σ δ : Type}

/-- How many threads are at work. -/
def busy (c : Crew σ δ) : Nat := c.jobs.countP Job.isWorking

/-- A thread is free for the job, and all jobs that were posted before it were begun. -/
def mayBegin (threads : Nat) (c : Crew σ δ) (i : Nat) : Bool :=
  c.busy < threads && (c.jobs.take i).all fun job => !job.isPosted

/-- Begins the job, and counts it. -/
def start (p : Plant σ δ) (c : Crew σ δ) (i : Nat) : Crew σ δ :=
  { c with jobs := c.jobs.set i (.working (p.trigger c.plant)), invocations := c.invocations + 1 }

/-- Takes the next step of a job of which this is left, or ends it. -/
def proceed (p : Plant σ δ) (c : Crew σ δ) (i : Nat) : Procedure σ δ → Crew σ δ
  | .done result => { c with jobs := c.jobs.set i (.ended result) }
  | .step deed next =>
    { c with plant := p.effect deed c.plant, jobs := c.jobs.set i (.working (next c.plant)) }

/-- It is a turn of the job: it is begun if that may be, and otherwise goes on. -/
def move (p : Plant σ δ) (threads : Nat) (c : Crew σ δ) (i : Nat) : Crew σ δ :=
  match c.jobs[i]? with
  | some .posted => if c.mayBegin threads i then c.start p i else c
  | some (.working rest) => c.proceed p i rest
  | _ => c

/-- Does what is left of the job, while nobody else has a turn. -/
def complete (p : Plant σ δ) (i : Nat) : Procedure σ δ → Crew σ δ → Except Error Unit × Crew σ δ
  | .done result, c => (result, c.proceed p i (.done result))
  | .step deed next, c => complete p i (next c.plant) (c.proceed p i (.step deed next))

/-- Waits for the result of the job, once the threads had their turns.  If the job has not ended by
then, what is left of it comes next. -/
def await (p : Plant σ δ) (threads : Nat) (turns : Turns) (i : Nat) (c : Crew σ δ) :
    Except Error Unit × Crew σ δ :=
  let c := (turns i).foldl (move p threads) c
  match c.jobs[i]? with
  | some (.ended result) => (result, c)
  | some (.working rest) => complete p i rest c
  | _ => complete p i (p.trigger c.plant) (c.start p i)

end Crew

end ProcessorBench
