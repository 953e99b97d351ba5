import ProcessorBench.Text

/-!
# Lifecycle phases

The moments in the life of a processor or a service at which its hooks are called.  Phases are
numbered in declaration order; a number beyond the last one names no phase.
-/

namespace ProcessorBench

inductive Phase where
  | added
  | scheduled
  | unscheduled
  | stopped
  | shutdown
  | enabled
  | disabled
  | removed
  deriving DecidableEq, Repr, Inhabited

namespace Phase

/-- All phases, each at the position that is its number. -/
def all : List Phase :=
  [added, scheduled, unscheduled, stopped, shutdown, enabled, disabled, removed]

def ofNumber? (n : Nat) : Option Phase := all[n]?

def name : Phase → Text
  | added => "Added"
  | scheduled => "Scheduled"
  | unscheduled => "Unscheduled"
  | stopped => "Stopped"
  | shutdown => "Shutdown"
  | enabled => "Enabled"
  | disabled => "Disabled"
  | removed => "Removed"

/-- The phase with the given name. -/
def named? (name : Text) : Option Phase := all.find? (·.name = name)

/-- The name of the phase with this number, also for numbers that are none. -/
def nameOfNumber (n : Nat) : Text := ((ofNumber? n).map name).getD "Unknown"

end Phase

end ProcessorBench
