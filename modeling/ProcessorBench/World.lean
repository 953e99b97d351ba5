import ProcessorBench.Log

/-!
# What surrounds the bench

Processors and services are the user's own objects.  Their state, whatever it is, stands in one
value of the user's choosing, so that two of them can share parts of it; the log stands beside it.
-/

namespace ProcessorBench

structure World (υ : Type) where
  /-- The state of the user's objects. -/
  user : υ
  log : Log := {}
  deriving Inhabited

namespace World

variable {υ : Type}

def note (w : World υ) (logger : Text) (level : Log.Level) (text : Text) : World υ :=
  { w with log := w.log.note logger level text }

end World

end ProcessorBench
