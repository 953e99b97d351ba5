import ProcessorBench.Text

/-!
# The log

Every part of the bench notes what it does under a name of its own, and so does a processor
under its identifier.  Records stay in the order in which they were noted.
-/

namespace ProcessorBench

inductive Log.Level where
  | debug
  | info
  | warn
  | error
  deriving DecidableEq, Repr, Inhabited

def Log.Level.name : Log.Level → Text
  | debug => "debug"
  | info => "info"
  | warn => "warn"
  | error => "error"

structure Log.Record where
  /-- The name under which the record was noted. -/
  logger : Text
  level : Log.Level
  text : Text
  deriving DecidableEq, Repr, Inhabited

/-- The records noted so far, oldest first. -/
structure Log where
  records : List Log.Record := []
  deriving DecidableEq, Repr, Inhabited

namespace Log

def note (log : Log) (logger : Text) (level : Level) (text : Text) : Log :=
  ⟨log.records ++ [⟨logger, level, text⟩]⟩

/-- The records of one logger, oldest first. -/
def of (log : Log) (logger : Text) : List Record := log.records.filter (·.logger = logger)

/-- The log without the records of one logger. -/
def forget (log : Log) (logger : Text) : Log := ⟨log.records.filter (·.logger ≠ logger)⟩

/-- Reads and forgets the records of one logger. -/
def take (log : Log) (logger : Text) : List Record × Log := (log.of logger, log.forget logger)

@[simp, grind =] theorem of_note (log : Log) (logger name : Text) (level : Level) (text : Text) :
    (log.note logger level text).of name =
      log.of name ++ if logger = name then [⟨logger, level, text⟩] else [] := by
  by_cases h : logger = name <;> simp [of, note, List.filter_append, h]

@[simp, grind =] theorem of_forget (log : Log) (logger name : Text) :
    (log.forget logger).of name = if name = logger then [] else log.of name := by
  simp only [of, forget, List.filter_filter]
  split
  · subst_vars
    simp
  · apply List.filter_congr
    intro r _
    by_cases h : r.logger = name <;> simp_all

end Log

end ProcessorBench
