import ProcessorBench.Error.Kind
import ProcessorBench.Lifecycle.Phase
import ProcessorBench.Property.Verdict

/-!
# Faults

The causes for which the library itself rejects a call, grouped by the part of the library that
finds them, each with its kind and its wording.
-/

namespace ProcessorBench

namespace Error

/-- What is wrong with an argument. -/
inductive ArgumentFault where
  | noContent
  | noSharedState
  | noIdGenerator
  | noWriter
  | noProcessor
  | unboundTarget
  | noHook
  | noInstance
  | noService
  | emptyPropertyName
  /-- An instance was handed over through a type that is not its own. -/
  | boundThroughBase (declared actual : Text)
  /-- A hook asks for an argument that was not supplied, or not for changing. -/
  | noHookArgument (phase : Phase) (typeName : Text)
  | noFailures
  | failureWithoutError (iteration : Nat)
  deriving DecidableEq, Repr

def ArgumentFault.message : ArgumentFault → Text
  | noContent => "FlowFile content can not be null"
  | noSharedState => "state can not be null"
  | noIdGenerator => "idGenerator can not be null"
  | noWriter => "writer can not be null"
  | noProcessor => "processor can not be null"
  | unboundTarget => "target must be bound to the processor"
  | noHook => "Lifecycle hook can not be null"
  | noInstance => "Can not bind lifecycle hooks to a null instance"
  | noService => "Can not add a null controller service"
  | emptyPropertyName => "Property name can not be empty"
  | boundThroughBase declared actual =>
    Text.join ["Can not bind the lifecycle hooks of '", declared, "' to an instance of '", actual,
      "', bind it through its concrete type"]
  | noHookArgument phase typeName =>
    Text.join ["Lifecycle hook for the ", phase.name, " phase requires an argument of type '",
      typeName, "' which was not supplied"]
  | noFailures => "The failures argument must contain at least one failed iteration."
  | failureWithoutError iteration =>
    Text.join ["Failed iteration ", Text.decimal iteration, " has no error"]

/-- Why a session rejects a flow file. -/
inductive FlowFileFault where
  | notHeld (id : UInt64)
  | alreadyRemoved (id : UInt64)
  | undeclaredRelationship (id : UInt64) (relationship : Text)
  | notFromQueue (id : UInt64)
  | undecided (id : UInt64)
  deriving DecidableEq, Repr

def FlowFileFault.message : FlowFileFault → Text
  | notHeld id =>
    Text.join ["Flow file ", Text.decimal id.toNat, " is not known to this session"]
  | alreadyRemoved id =>
    Text.join ["Flow file ", Text.decimal id.toNat, " has already been removed from this session"]
  | undeclaredRelationship id relationship =>
    Text.join ["Can not transfer flow file ", Text.decimal id.toNat, " to '", relationship,
      "' because the processor does not define that relationship"]
  | notFromQueue id =>
    Text.join ["Can not return flow file ", Text.decimal id.toNat,
      " to the input queue because it was created by this session"]
  | undecided id =>
    Text.join ["Can not commit session because flow file ", Text.decimal id.toNat,
      " was neither transferred nor removed"]

/-- Which check does not hold. -/
inductive CheckFault where
  | attributeMissing (id : UInt64) (key : Text)
  | attributePresent (id : UInt64) (key : Text)
  | attributeAbsent (id : UInt64) (key expected : Text)
  | attributeDiffers (id : UInt64) (key expected found : Text)
  | contentSize (id : UInt64) (found expected : Nat)
  | contentByte (id : UInt64) (offset : Nat) (expected found : UInt8)
  | contentText (id : UInt64) (found expected : Text)
  | routedElsewhere (relationship : Text) (count : Nat) (other : Text)
  | transferCount (expected : Nat) (relationship : Text) (found : Nat)
  | queueNotEmpty (count : Nat)
  | queueEmpty
  | runInvalid (identifier : Text) (verdicts : List Verdict)
  | processorInvalid (verdicts : List Verdict)
  | processorValid
  | serviceInvalid (identifier : Text) (verdicts : List Verdict)
  | serviceValid (identifier : Text)
  deriving DecidableEq, Repr

def CheckFault.message : CheckFault → Text
  | attributeMissing id key =>
    Text.join ["Attribute '", key, "' does not exist on flow file ", Text.decimal id.toNat]
  | attributePresent id key =>
    Text.join ["Attribute '", key, "' unexpectedly exists on flow file ", Text.decimal id.toNat]
  | attributeAbsent id key expected =>
    Text.join ["Expected attribute '", key, "' to be '", expected,
      "' but it does not exist on flow file ", Text.decimal id.toNat]
  | attributeDiffers id key expected found =>
    Text.join ["Expected attribute '", key, "' to be '", expected, "' but found '", found,
      "' on flow file ", Text.decimal id.toNat]
  | contentSize id found expected =>
    Text.join ["Content of flow file ", Text.decimal id.toNat, " has size ", Text.decimal found,
      " but ", Text.decimal expected, " bytes were expected"]
  | contentByte id offset expected found =>
    Text.join ["Content of flow file ", Text.decimal id.toNat, " differs at byte ",
      Text.decimal offset, ": expected 0x", Text.hexByte expected, " but found 0x",
      Text.hexByte found]
  | contentText id found expected =>
    Text.join ["Content of flow file ", Text.decimal id.toNat, " is '", found, "' but '", expected,
      "' was expected"]
  | routedElsewhere relationship count other =>
    Text.join ["Expected all transferred flow files to go to '", relationship, "' but ",
      Text.decimal count, " were routed to '", other, "'"]
  | transferCount expected relationship found =>
    Text.join ["Expected ", Text.decimal expected, " flow file(s) transferred to '", relationship,
      "' but found ", Text.decimal found]
  | queueNotEmpty count =>
    Text.join ["Expected the input queue to be empty but it holds ", Text.decimal count,
      " flow file(s)"]
  | queueEmpty => "Expected the input queue to hold flow files but it is empty"
  | runInvalid identifier verdicts =>
    Text.join ["Processor '", identifier, "' has an invalid configuration:",
      Verdict.problems verdicts]
  | processorInvalid verdicts =>
    Text.join ["Processor has an invalid configuration:", Verdict.problems verdicts]
  | processorValid => "Processor appears to be valid but expected it to be invalid"
  | serviceInvalid identifier verdicts =>
    Text.join ["Controller service '", identifier, "' has an invalid configuration:",
      Verdict.problems verdicts]
  | serviceValid identifier =>
    Text.join ["Controller service '", identifier,
      "' appears to be valid but expected it to be invalid"]

/-- Which run setting is out of its range. -/
inductive ConfigurationFault where
  | iterations (n : Int)
  | threads (n : Int)
  | serialThreads (n : Int)
  deriving DecidableEq, Repr

def ConfigurationFault.message : ConfigurationFault → Text
  | iterations n => Text.join ["Iterations must be at least 1, got ", Text.decimalInt n]
  | threads n => Text.join ["Thread count must be at least 1, got ", Text.decimalInt n]
  | serialThreads n =>
    Text.join ["Can not use ", Text.decimalInt n,
      " threads because the processor must be triggered serially"]

/-- A change of a service's configuration, by the name under which it is refused. -/
inductive Change where
  | setProperty
  | removeProperty
  | setAnnotationData
  deriving DecidableEq, Repr

def Change.name : Change → Text
  | setProperty => "SetProperty"
  | removeProperty => "RemoveProperty"
  | setAnnotationData => "SetAnnotationData"

/-- Why a request about a service is refused. -/
inductive ServiceFault where
  | unknown (identifier : Text)
  | duplicate (identifier : Text)
  | alreadyEnabled (identifier : Text)
  | notEnabled (identifier : Text)
  | stillEnabled (identifier : Text)
  | frozen (change : Change) (identifier : Text)
  | cast (identifier actual requested : Text)
  deriving DecidableEq, Repr

def ServiceFault.kind : ServiceFault → Kind
  | unknown _ => .unknownIdentifier
  | duplicate _ => .duplicateService
  | cast .. => .serviceCast
  | _ => .serviceState

def ServiceFault.message : ServiceFault → Text
  | unknown identifier =>
    Text.join ["No controller service with identifier '", identifier, "' has been added"]
  | duplicate identifier =>
    Text.join ["A controller service with identifier '", identifier, "' has already been added"]
  | alreadyEnabled identifier =>
    Text.join ["Controller service '", identifier, "' is already enabled"]
  | notEnabled identifier => Text.join ["Controller service '", identifier, "' is not enabled"]
  | stillEnabled identifier =>
    Text.join ["Controller service '", identifier, "' must be disabled before it can be removed"]
  | frozen change identifier =>
    Text.join ["Can not ", change.name, " on controller service '", identifier,
      "' while it is enabled"]
  | cast identifier actual requested =>
    Text.join ["Controller service '", identifier, "' of type '", actual,
      "' cannot be cast to requested type '", requested, "'"]

/-- Content that could not be read. -/
inductive ReadFault where
  | importing (id : UInt64)
  | enqueueing
  | opening (path : Text)
  deriving DecidableEq, Repr

def ReadFault.message : ReadFault → Text
  | importing id => Text.join ["Failed to read the content for flow file ", Text.decimal id.toNat]
  | enqueueing => "Failed to read the content to enqueue"
  | opening path => Text.join ["Failed to open '", path, "'"]

end Error

end ProcessorBench
