import ProcessorBench.Bench.Basic

/-!
# Checks on a bench

What a test asserts after runs: where flow files went, what is left in the queue, and whether the
configuration of the processor or of a service is valid.
-/

namespace ProcessorBench

namespace Bench

variable {υ : Type}

def assertAllRouted (b : Bench υ) (relationship : Text) : Except Error Unit :=
  b.workspace.assertAllRouted relationship

def assertRoutedCount (b : Bench υ) (relationship : Text) (expected : Nat) : Except Error Unit :=
  b.workspace.assertRoutedCount relationship expected

/-- Everything went to the relationship, and it was so many flow files. -/
def assertAllRoutedCount (b : Bench υ) (relationship : Text) (expected : Nat) :
    Except Error Unit :=
  match b.assertAllRouted relationship with
  | .error e => .error e
  | .ok () => b.assertRoutedCount relationship expected

def assertQueueEmpty (b : Bench υ) : Except Error Unit :=
  let n := b.pool.queue.size.objects
  if n = 0 then .ok () else .error (.check (.queueNotEmpty n))

def assertQueueNotEmpty (b : Bench υ) : Except Error Unit :=
  if b.pool.queue.isEmpty then .error (.check .queueEmpty) else .ok ()

def assertValid (b : Bench υ) : Except Error Unit :=
  match b.context.validate with
  | .error e => .error e
  | .ok verdicts =>
    if Verdict.allValid verdicts then .ok () else .error (.check (.processorInvalid verdicts))

def assertNotValid (b : Bench υ) : Except Error Unit :=
  match b.context.isValid with
  | .error e => .error e
  | .ok true => .error (.check .processorValid)
  | .ok false => .ok ()

def assertServiceValid (b : Bench υ) (identifier : Text) : Except Error Unit :=
  match b.context.services.validate identifier with
  | .error e => .error e
  | .ok verdicts =>
    if Verdict.allValid verdicts then .ok ()
    else .error (.check (.serviceInvalid identifier verdicts))

def assertServiceNotValid (b : Bench υ) (identifier : Text) : Except Error Unit :=
  match b.context.services.validate identifier with
  | .error e => .error e
  | .ok verdicts =>
    if Verdict.allValid verdicts then .error (.check (.serviceValid identifier)) else .ok ()

end Bench

end ProcessorBench
