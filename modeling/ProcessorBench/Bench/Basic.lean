import ProcessorBench.Engine
import ProcessorBench.Processor.Basic

/-!
# The bench

A bench holds one processor and everything around it: the context with the processor's
configuration and the services, the workspace with the input queue and the sessions, the engine
that triggers, and the world.
-/

namespace ProcessorBench

structure Bench (υ : Type) where
  processor : Processor υ
  target : Target (Context.signature υ) υ
  engine : Engine
  /-- Runs are refused while the configuration of the processor is not valid. -/
  validateOnRun : Bool := true
  context : Context υ
  workspace : Workspace
  world : World υ

/-- How a bench is set up. -/
structure Bench.Config where
  threads : Int := 1
  validateOnRun : Bool := true
  /-- The identifier of the processor; an empty one stands for a fresh one. -/
  identifier : Text := []
  deriving DecidableEq, Repr, Inhabited

namespace Bench

variable {υ : Type}

def logger : Text := "ProcessorTestRunner"

def identifier (b : Bench υ) : Text := b.context.identifier

/-- What the sessions of the bench share. -/
def pool (b : Bench υ) : Pool := b.workspace.pool

def withPool (b : Bench υ) (pool : Pool) : Bench υ :=
  { b with workspace := { b.workspace with pool } }

/-- An engine for a processor that is told through the target; the processor may not be missing,
and the target must be bound. -/
def makeEngine (processor : Option (Processor υ)) (target : Target (Context.signature υ) υ) :
    Except Error Engine :=
  match processor with
  | none => .error (.argument .noProcessor)
  | some p =>
    if target.isBound then .ok (.single p.serial) else .error (.argument .unboundTarget)

/-- The engine of a new bench, with the number of threads that the configuration asks for. -/
def configureEngine (p : Processor υ) (target : Target (Context.signature υ) υ) (config : Config) :
    Except Error Engine :=
  match makeEngine (some p) target with
  | .error e => .error e
  | .ok engine => engine.setThreads config.threads

/-- Sets the bench up around a processor that is bound already: starts it, tells it that it was
added, and prepares the engine. -/
def assemble (p : Processor υ) (target : Target (Context.signature υ) υ) (config : Config)
    (sources : Sources) (w : World υ) : Except Error (Bench υ) × World υ :=
  let supply : Supply := { sources }
  let (identifier, supply) :=
    if config.identifier.isEmpty then supply.takeUuid else (config.identifier, supply)
  let services : Registry υ := {}
  match p.start identifier services w.user with
  | (.error e, user) => (.error e, { w with user })
  | (.ok (), user) =>
    let r := target.invoke .added [] user w.log
    let w : World υ := { user := r.state, log := r.log }
    match r.outcome with
    | .error e => (.error e, w)
    | .ok () =>
      match configureEngine p target config with
      | .error e => (.error e, w)
      | .ok engine =>
        let w := w.note logger .debug <|
          Text.join ["ProcessorTestRunner: created runner for '", identifier, "' (",
            if engine.serial then "serial" else "concurrent", ")"]
        let pool : Pool :=
          { supply, relationships := p.declaration.relationships.map (·.name) }
        (.ok { processor := p, target, engine, validateOnRun := config.validateOnRun,
               context := { identifier, processor := p.declaration, services },
               workspace := { pool := pool }, world := w }, w)

/-- A bench for a processor that is handed over through a type: the processor may not be missing,
and the type must be its own. -/
def make (processor : Option (Processor υ)) (declared : Component (Context.signature υ) υ)
    (config : Config) (sources : Sources) (w : World υ) : Except Error (Bench υ) × World υ :=
  match processor with
  | none => (.error (.argument .noInstance), w)
  | some p =>
    match Target.bind declared (some p.component.typeName) with
    | .error e => (.error e, w)
    | .ok target => assemble p target config sources w

/-! ## Driving the processor -/

/-- What triggers of the processor work on. -/
def stage (b : Bench υ) : Stage υ := ⟨b.context, b.workspace, b.world⟩

def withStage (b : Bench υ) (s : Stage υ) : Bench υ :=
  { b with context := s.context, workspace := s.workspace, world := s.world }

/-- Tells the processor about a phase.  Its hooks can have the context, except when it is added or
stopped. -/
def fire (b : Bench υ) (phase : Phase) : Except Error Unit × Bench υ :=
  if phase = .added ∨ phase = .stopped then
    let r := b.target.invoke phase [] b.world.user b.world.log
    (r.outcome, { b with world := { user := r.state, log := r.log } })
  else
    let r := b.target.invoke phase [{ kind := (), value := b.context }] b.world.user b.world.log
    (r.outcome,
      { b with
        context := (Arguments.forChanging? r.arguments ()).getD b.context
        world := { user := r.state, log := r.log } })

/-- The bench as the engine drives it. -/
def plant : Plant (Bench υ) (Deed υ) where
  trigger b := (b.processor.procedure b.identifier).within stage
  effect deed b := b.withStage (deed.effect b.stage)
  fire phase b := b.fire phase
  note level text b := { b with world := b.world.note Engine.logger level text }

/-- Runs the processor, unless its configuration has to be valid and is not.  Its triggers have
these turns. -/
def run (b : Bench υ) (options : RunOptions) (turns : Crew.Turns) : Except Error Unit × Bench υ :=
  match if b.validateOnRun then b.context.validate else .ok [] with
  | .error e => (.error e, b)
  | .ok verdicts =>
    if Verdict.allValid verdicts then
      let (outcome, engine, b) := b.engine.run plant options turns b
      (outcome, { b with engine })
    else
      let w := b.world.note logger .error <|
        Text.join ["ProcessorTestRunner::Run: processor '", b.identifier, "' is not valid"]
      (.error (.check (.runInvalid b.identifier verdicts)), { b with world := w })

/-- Tells the processor that it is shut down. -/
def shutdown (b : Bench υ) : Except Error Unit × Bench υ := b.fire .shutdown

def setThreads (b : Bench υ) (n : Int) : Except Error Unit × Bench υ :=
  match b.engine.setThreads n with
  | .error e => (.error e, b)
  | .ok engine => (.ok (), { b with engine })

/-- Works on the services of the bench. -/
def onServices {α : Type} (b : Bench υ) (act : Registry υ → World υ → α × Registry υ × World υ) :
    α × Bench υ :=
  let (r, services, w) := act b.context.services b.world
  (r, { b with context := { b.context with services }, world := w })

end Bench

end ProcessorBench
