import ProcessorBench.Text

/-!
# Verdicts

The result of checking one value: what was checked, against which input, and what is wrong.
-/

namespace ProcessorBench

structure Verdict where
  /-- What was checked, usually the name of a property. -/
  subject : Text
  /-- The value that was checked. -/
  input : Text
  /-- What is wrong; empty if nothing is. -/
  explanation : Text
  valid : Bool
  deriving DecidableEq, Repr, Inhabited

namespace Verdict

def accept (subject input : Text) : Verdict := ⟨subject, input, [], true⟩

def reject (subject input explanation : Text) : Verdict := ⟨subject, input, explanation, false⟩

/-- No verdict of the list is a rejection. -/
def allValid (l : List Verdict) : Bool := l.all (·.valid)

/-- One line for each rejection, as failed checks of a configuration list them. -/
def problems (l : List Verdict) : Text :=
  Text.join <| (l.filter fun v => !v.valid).map fun v =>
    Text.join ["\n  '", v.subject, "' validated against '", v.input, "' is invalid because ",
      v.explanation]

end Verdict

end ProcessorBench
