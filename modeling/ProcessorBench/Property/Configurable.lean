import ProcessorBench.Property.Settings

/-!
# Configurable components

What processors and services have in common: properties that can be asked for by name, and a
judgement of their settings.
-/

namespace ProcessorBench

/-- What a component may look at when it judges its configuration. -/
structure Review where
  settings : Settings
  /-- A service is there under the identifier, and it is enabled. -/
  serviceEnabled : Text → Bool := fun _ => false

structure Configurable where
  /-- The property with the given name.  Finding out may fail. -/
  descriptor? : Text → Except Error (Option Descriptor)
  validate : Review → Except Error (List Verdict)

namespace Configurable

/-- A component with a list of properties: the first one of a name counts, and the judgement of the
properties comes before what the component has to add. -/
def ofDescriptors (descriptors : Except Error (List Descriptor))
    (custom : Review → Except Error (List Verdict)) : Configurable where
  descriptor? name := descriptors.map fun l => l.find? fun d => d.name = name
  validate review := do
    let supported ← descriptors
    let added ← custom review
    return review.settings.validate supported ++ added

/-- A component without properties, which judges its configuration on its own. -/
def ofReview (validate : Review → Except Error (List Verdict)) : Configurable where
  descriptor? _ := .ok none
  validate := validate

/-- Sets the named property if the component has it; otherwise `refusal` words the rejection. -/
def setByName (c : Configurable) (s : Settings) (name value refusal : Text) :
    Except Error Verdict × Settings :=
  match c.descriptor? name with
  | .error e => (.error e, s)
  | .ok none => (.ok (.reject name value refusal), s)
  | .ok (some d) => (.ok (d.validate (some value)), s.set d value)

/-- The value of the named property: the one it was set to, or else the default of the property
that the component has under this name. -/
def value? (c : Configurable) (s : Settings) (name : Text) : Except Error (Option Text) :=
  match s.value? name with
  | some value => .ok (some value)
  | none => (c.descriptor? name).map fun d? => d?.bind (·.defaultValue)

end Configurable

end ProcessorBench
