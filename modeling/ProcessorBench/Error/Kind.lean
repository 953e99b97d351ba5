import ProcessorBench.Text

/-!
# Kinds of error

The families into which errors fall.  A caller may treat all errors of a family alike; the text
that names the family stands in front of an error's message when the error is described.
-/

namespace ProcessorBench

namespace Error

inductive Kind where
  | runtime
  | logic
  | invalidArgument
  | outOfRange
  | assertionFailed
  | triggerFailure
  | lifecycleInvocation
  | initialization
  | invalidConfiguration
  | unknownIdentifier
  | serviceState
  | duplicateService
  | serviceCast
  | flowFileHandling
  /-- A thrown value that carries no message. -/
  | foreign
  deriving DecidableEq, Repr, Inhabited

namespace Kind

/-- All kinds. -/
def all : List Kind :=
  [runtime, logic, invalidArgument, outOfRange, assertionFailed, triggerFailure,
   lifecycleInvocation, initialization, invalidConfiguration, unknownIdentifier, serviceState,
   duplicateService, serviceCast, flowFileHandling, foreign]

/-- The name of the kind, by which a report or a script can refer to it. -/
def name : Kind → Text
  | runtime => "runtime_error"
  | logic => "logic_error"
  | invalidArgument => "invalid_argument"
  | outOfRange => "out_of_range"
  | assertionFailed => "AssertionFailedException"
  | triggerFailure => "TriggerFailureException"
  | lifecycleInvocation => "LifecycleInvocationException"
  | initialization => "InitializationException"
  | invalidConfiguration => "InvalidConfigurationException"
  | unknownIdentifier => "UnknownIdentifierException"
  | serviceState => "ServiceStateException"
  | duplicateService => "DuplicateServiceRegistrationException"
  | serviceCast => "ServiceCastException"
  | flowFileHandling => "FlowFileHandlingException"
  | foreign => "unknown"

/-- The kind with the given name. -/
def named? (name : Text) : Option Kind := all.find? (·.name = name)

/-- The type description of an error of this kind; foreign values have none. -/
def typeName (kind : Kind) : Text :=
  match kind with
  | foreign => []
  | runtime | logic | invalidArgument | outOfRange =>
    Text.join ["St", Text.sized kind.name]
  | _ => Text.ownType kind.name

end Kind

end Error

end ProcessorBench
