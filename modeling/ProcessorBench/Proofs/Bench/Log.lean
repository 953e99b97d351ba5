import ProcessorBench.Proofs.Bench.Outcome
import ProcessorBench.Proofs.Bench.Run
import ProcessorBench.Proofs.Engine.Notes

/-!
# The log of a run

The engine notes what it does under a name of its own.  Hooks are called under another name, and a
processor notes its failures under its identifier.  Unless that is the name of the engine, what the
log has under the name of the engine is what the engine noted, whatever triggers note in the
meantime (`Bench.run_log`).
-/

set_option autoImplicit false

namespace ProcessorBench

variable {υ : Type}

section

variable {S : Signature} {σ : Type}

/-- What is noted about the calls of hooks is noted under one name. -/
theorem Component.invoke_log_of (c : Component S σ) (phase : Phase) (args : Arguments S) (s : σ)
    (log : Log) {name : Text} (h : logger ≠ name) :
    (c.invoke phase args s log).log.of name = log.of name := by
  unfold invoke
  split
  · rfl
  · split
    · simp [h]
    · simp [h]

theorem Target.invoke_log_of (t : Target S σ) (phase : Phase) (args : Arguments S) (s : σ)
    (log : Log) {name : Text} (h : Component.logger ≠ name) :
    (t.invoke phase args s log).log.of name = log.of name := by
  unfold invoke
  split
  · rfl
  · exact Component.invoke_log_of _ phase args s log h

end

/-- Whatever the procedure finds, it does such deeds only. -/
inductive Procedure.Only {σ δ : Type} (P : δ → Prop) : Procedure σ δ → Prop where
  | done (result : Except Error Unit) : Only P (.done result)
  | step (deed : δ) (next : σ → Procedure σ δ) (hdeed : P deed) (hnext : ∀ s, Only P (next s)) :
      Only P (.step deed next)

/-- The deed neither notes anything under the name of the engine, nor gives this name to a
processor. -/
def Deed.Discreet : Deed υ → Prop
  | configure change => ∀ c : Context υ, c.identifier ≠ Engine.logger →
      (change c).identifier ≠ Engine.logger
  | note logger _ _ => logger ≠ Engine.logger
  | openSession | call _ _ | touch _ | look => True

namespace Bench

theorem fire_log_of (b : Bench υ) (phase : Phase) {name : Text} (h : Component.logger ≠ name) :
    (b.fire phase).2.world.log.of name = b.world.log.of name := by
  unfold fire
  split
  · exact Target.invoke_log_of _ _ _ _ _ h
  · exact Target.invoke_log_of _ _ _ _ _ h

/-- A note of the engine as the log has it. -/
def record (note : Controls.Note) : Log.Record := ⟨Engine.logger, note.1, note.2⟩

/-- The processor does not go under the name of the engine, and neither its triggers nor its hooks
take it. -/
structure Unconfused (b : Bench υ) : Prop where
  identifier : b.identifier ≠ Engine.logger
  trigger : ∀ identifier, identifier ≠ Engine.logger →
    (b.processor.procedure identifier).Only Deed.Discreet
  fire : ∀ (c : Bench υ) phase, c.target = b.target → c.identifier ≠ Engine.logger →
    (c.fire phase).2.identifier ≠ Engine.logger

/-- What the log has under the name of the engine is what it had at first and what was noted. -/
structure Logged (start : Bench υ) (notes : List Controls.Note) (b : Bench υ) : Prop where
  processor : b.processor = start.processor
  target : b.target = start.target
  identifier : b.identifier ≠ Engine.logger
  log : b.world.log.of Engine.logger = start.world.log.of Engine.logger ++ notes.map record

theorem Logged.effect {start : Bench υ} {notes : List Controls.Note} {b : Bench υ}
    (h : Logged start notes b) {deed : Deed υ} (hdeed : deed.Discreet) :
    Logged start notes (plant.effect deed b) := by
  cases deed with
  | openSession | call | touch | look => exact ⟨h.processor, h.target, h.identifier, h.log⟩
  | configure change => exact ⟨h.processor, h.target, hdeed _ h.identifier, h.log⟩
  | note logger level text =>
    refine ⟨h.processor, h.target, h.identifier, ?_⟩
    show (b.world.log.note logger level text).of Engine.logger = _
    rw [Log.of_note, if_neg hdeed, List.append_nil]
    exact h.log

theorem keeps_logged (start : Bench υ) {rest : Procedure (Stage υ) (Deed υ)}
    (h : rest.Only Deed.Discreet) : (rest.within stage).Keeps plant.effect (Logged start) := by
  induction h with
  | done result => exact .done result
  | step deed next hdeed _ ih =>
    exact .step deed _ (fun _ _ hb => hb.effect hdeed) fun _ b _ => ih b.stage

theorem says_logged {start : Bench υ} (h : start.Unconfused) : plant.Says (Logged start) where
  trigger {notes b} hb := keeps_logged start (by
    rw [hb.processor]
    exact h.trigger b.identifier hb.identifier)
  fire {notes b} phase hb :=
    { processor := (fire_aside b phase).1.trans hb.processor
      target := (fire_target b phase).trans hb.target
      identifier := h.fire b phase hb.target hb.identifier
      log := (b.fire_log_of phase (by decide)).trans hb.log }
  note {notes b} level text hb :=
    { processor := hb.processor
      target := hb.target
      identifier := hb.identifier
      log := by
        show (b.world.log.note Engine.logger level text).of Engine.logger = _
        rw [Log.of_note, if_pos rfl, hb.log, List.map_append, List.append_assoc]
        rfl }

/-- **What the engine notes in a run is what the log has under its name.** -/
theorem run_log {b : Bench υ} (h : b.Unconfused) (options : RunOptions) (turns : Crew.Turns) :
    (b.engine.run plant options turns b).2.2.world.log.of Engine.logger =
      b.world.log.of Engine.logger ++ (b.engine.notes plant options turns b).map record :=
  (Engine.run_shows_notes (says_logged h) b.engine options turns
    { processor := rfl
      target := rfl
      identifier := h.identifier
      log := (List.append_nil _).symm }).log

end Bench

end ProcessorBench
