import ProcessorBench.FlowFile.Basic
import ProcessorBench.Service.Registry

/-!
# What a processor sees of its surroundings

The context gives a processor its identifier, its configuration, the relationships that are open
to it, and the services.  Configuration and relationships can be changed through it; the services
can only be used, and only while they are enabled.
-/

namespace ProcessorBench

/-- What a processor declares about itself. -/
structure Declaration where
  relationships : List Relationship := []
  configurable : Configurable := .ofReview fun _ => .ok []

structure Context (υ : Type) where
  identifier : Text
  processor : Declaration
  settings : Settings := {}
  /-- The names of the relationships that are closed. -/
  unavailable : List Text := []
  services : Registry υ := {}

namespace Context

variable {υ : Type}

/-- A context for the processor, which may not be missing. -/
def make (identifier : Text) (processor : Option Declaration) (services : Registry υ) :
    Except Error (Context υ) :=
  match processor with
  | none => .error (.argument .noProcessor)
  | some processor => .ok { identifier, processor, services := services }

/-! ## Configuration -/

/-- The value of the named property, or the default of the processor's property of that name. -/
def value? (c : Context υ) (name : Text) : Except Error (Option Text) :=
  c.processor.configurable.value? c.settings name

/-- The value of the property, or the default of the given descriptor. -/
def valueOf (c : Context υ) (d : Descriptor) : Option Text := c.settings.valueOf d

/-- Sets a property, also to a value that is not valid. -/
def setProperty (c : Context υ) (d : Descriptor) (value : Text) : Verdict × Context υ :=
  (d.validate (some value), { c with settings := c.settings.set d value })

/-- Sets a property of the processor by its name. -/
def setPropertyByName (c : Context υ) (name value : Text) : Except Error Verdict × Context υ :=
  let refusal := Text.join ["'", name, "' is not a supported property of the processor"]
  let (verdict, settings) := c.processor.configurable.setByName c.settings name value refusal
  (verdict, { c with settings })

def removeProperty (c : Context υ) (name : Text) : Bool × Context υ :=
  let (found, settings) := c.settings.remove name
  (found, { c with settings })

def annotate (c : Context υ) (annotationData : Option Text) : Context υ :=
  { c with settings := c.settings.annotate annotationData }

/-- The judgement of the processor on its configuration. -/
def validate (c : Context υ) : Except Error (List Verdict) :=
  c.processor.configurable.validate
    { settings := c.settings, serviceEnabled := c.services.hasEnabled }

def isValid (c : Context υ) : Except Error Bool := c.validate.map Verdict.allValid

/-! ## Relationships -/

def isAvailable (c : Context υ) (relationship : Text) : Bool := !c.unavailable.contains relationship

/-- The processor's relationships that are not closed, in their order. -/
def available (c : Context υ) : List Relationship :=
  c.processor.relationships.filter fun r => c.isAvailable r.name

def makeAvailable (c : Context υ) (relationship : Text) : Context υ :=
  { c with unavailable := c.unavailable.filter (· ≠ relationship) }

def makeUnavailable (c : Context υ) (relationship : Text) : Context υ :=
  { c with unavailable := relationship :: c.unavailable }

/-! ## Services -/

/-- Goes on if there is an enabled service under the identifier. -/
def requireEnabled {α : Type} (c : Context υ) (identifier : Text) (k : Except Error α) :
    Except Error α :=
  match c.services.isEnabled identifier with
  | .error e => .error e
  | .ok false => .error (.service (.notEnabled identifier))
  | .ok true => k

def service (c : Context υ) (identifier : Text) : Except Error (Service υ) :=
  c.requireEnabled identifier (c.services.service identifier)

/-- The service, if it can be used through the named type. -/
def typedService (c : Context υ) (identifier requested : Text) : Except Error (Service υ) :=
  c.requireEnabled identifier (c.services.typedService identifier requested)

end Context

end ProcessorBench
