import ProcessorBench.Error.Fault

/-!
# Errors

An `Error` is what ends a call early.  It is kept as its cause: a fault that the library found,
something that user code raised, or one of the compound errors that wrap others.  `Error.message`
words it, `Error.describe` puts the name of its kind in front, and `Error.cause?` gives the error
that a compound one passes on.
-/

namespace ProcessorBench

/-- Why a call failed. -/
inductive Error where
  /-- Raised by user code. -/
  | raised (kind : Error.Kind) (message : Text)
  /-- A value thrown by user code that carries no message. -/
  | foreign
  | argument (fault : Error.ArgumentFault)
  | flowFile (fault : Error.FlowFileFault)
  | check (fault : Error.CheckFault)
  | configuration (fault : Error.ConfigurationFault)
  | service (fault : Error.ServiceFault)
  | read (fault : Error.ReadFault)
  /-- Hooks were called through a target that stands for nothing. -/
  | unboundTarget
  /-- A hook of the phase failed on a component of the given type. -/
  | lifecycle (phase : Phase) (typeName : Text) (cause : Error)
  /-- A service failed to start under the identifier. -/
  | serviceStart (identifier : Text) (cause : Error)
  /-- A service was added with a value for a property that it does not have. -/
  | unsupportedProperty (identifier property : Text)
  /-- A hook failed when the service was added. -/
  | serviceAdded (identifier typeName : Text) (cause : Error)
  /-- Triggers failed: the first one, and the later ones by iteration. -/
  | triggers (iteration : Nat) (first : Error) (later : List (Nat × Error))
  deriving Inhabited

namespace Error

def kind : Error → Kind
  | raised kind _ => kind
  | foreign => .foreign
  | argument _ => .invalidArgument
  | flowFile _ => .flowFileHandling
  | check _ => .assertionFailed
  | configuration _ => .invalidConfiguration
  | service fault => fault.kind
  | read _ => .runtime
  | unboundTarget => .logic
  | lifecycle .. => .lifecycleInvocation
  | serviceStart .. => .initialization
  | unsupportedProperty .. => .initialization
  | serviceAdded .. => .initialization
  | triggers .. => .triggerFailure

/-- The wording of a failed hook, given the wording of its cause. -/
def lifecycleMessage (phase : Phase) (typeName cause : Text) : Text :=
  Text.join ["Could not invoke hooks registered for the ", phase.name, " phase on '", typeName,
    "' due to: ", cause]

/-- The wording of an error.  Compound errors quote the error they pass on.  A wording is
zero-terminated, so a zero byte in a name or content that it quotes ends it. -/
def message (e : Error) : Text :=
  Text.visible <| match e with
  | raised _ message => message
  | foreign => "(unknown exception type)"
  | argument fault => fault.message
  | flowFile fault => fault.message
  | check fault => fault.message
  | configuration fault => fault.message
  | service fault => fault.message
  | read fault => fault.message
  | unboundTarget => "LifecycleTarget is not bound to an instance"
  | lifecycle phase typeName cause => lifecycleMessage phase typeName cause.message
  | serviceStart identifier cause =>
    Text.join ["Failed to initialize controller service '", identifier, "' due to: ", cause.message]
  | unsupportedProperty identifier property =>
    Text.join ["Controller service '", identifier, "' does not support the property '", property,
      "'"]
  | serviceAdded identifier typeName cause =>
    Text.join ["Failed to add controller service '", identifier, "' due to: ",
      lifecycleMessage .added typeName cause.message]
  | triggers iteration first later =>
    Text.join ["Processor trigger failed on iteration ", Text.decimal iteration, " due to: ",
      first.message, if later.isEmpty then [] else
        Text.join [" (", Text.decimal later.length, " more failed iterations)"]]

/-- The error with the name of its kind in front. -/
def describe (e : Error) : Text :=
  match e.kind with
  | .foreign => "(unknown exception type)"
  | kind => Text.join [kind.typeName, ": ", e.message]

/-- The error that a compound error passes on. -/
def cause? : Error → Option Error
  | lifecycle _ _ cause => some cause
  | serviceStart _ cause => some cause
  | serviceAdded _ _ cause => some cause
  | triggers _ first _ => some first
  | _ => none

/-- The error is no foreign value, so it has a message of its own. -/
def isStandard (e : Error) : Bool := e.kind != .foreign

/-- The failed iterations that the error reports, in the order of their numbers. -/
def failures : Error → List (Nat × Error)
  | triggers iteration first later => (iteration, first) :: later
  | _ => []

/-- The report of failed iterations: the message, then one line for each. -/
def report (e : Error) : Text :=
  Text.join [e.message, "\n", Text.intercalate "\n" <| e.failures.map fun (i, error) =>
    Text.join ["  [iteration ", Text.decimal i, "] ", error.describe]]

/-- The wording of an error that may be missing. -/
def messageOf : Option Error → Text
  | none => "(null exception)"
  | some e => e.message

/-- The description of an error that may be missing. -/
def describeOf : Option Error → Text
  | none => "(null exception)"
  | some e => e.describe

/-- Collects failed iterations into one error.  There must be one, and each must have an error. -/
def ofFailures (failures : List (Nat × Option Error)) : Except Error Error :=
  match failures with
  | [] => .error (.argument .noFailures)
  | _ =>
    match failures.find? (·.2.isNone) with
    | some (i, _) => .error (.argument (.failureWithoutError i))
    | none =>
      match failures.filterMap fun (i, e?) => e?.map (i, ·) with
      | [] => .error (.argument .noFailures)
      | (i, first) :: later => .ok (.triggers i first later)

end Error

end ProcessorBench
