import ProcessorBench.Lifecycle.Target
import ProcessorBench.Property.Configurable

/-!
# Services

A service is something that processors use.  It is the user's own object: it learns its identifier
when it is started, has properties, and may have hooks, which can read the configuration of the
service but not change it.
-/

namespace ProcessorBench

/-- What the hooks of a service are shown. -/
structure Configuration where
  identifier : Text
  settings : Settings

/-- The hooks of services can ask for the configuration. -/
@[reducible] def Configuration.signature : Signature where
  Kind := Unit
  Value _ := Configuration
  typeName _ := Text.ownType "ConfigurationContext"

structure Service (υ : Type) where
  /-- The service's own type, with its hooks. -/
  component : Component Configuration.signature υ
  /-- The names of the further types through which the service can be used. -/
  bases : List Text := []
  /-- What the user calls the object. -/
  label : Text := []
  /-- The identifier that the object learned last. -/
  identifier : υ → Text
  /-- Tells the object its identifier. -/
  learn : Text → υ → υ
  /-- What the object does when it is started under an identifier. -/
  start : Text → υ → Except Error Unit × υ := fun _ user => (.ok (), user)
  configurable : Configurable

namespace Service

variable {υ : Type}

/-- The name of the service's own type. -/
def typeName (s : Service υ) : Text := s.component.typeName

/-- The service can be used through the named type. -/
def isA (s : Service υ) (typeName : Text) : Bool :=
  s.typeName = typeName || s.bases.contains typeName

/-- Starts the service: it learns its identifier, also if it then fails. -/
def startUnder (s : Service υ) (identifier : Text) (user : υ) : Except Error Unit × υ :=
  s.start identifier (s.learn identifier user)

/-- The settings with the given values, or the first name that the service has no property for. -/
def settings (s : Service υ) : List (Text × Text) → Settings → Except Error (Except Text Settings)
  | [], settings => .ok (.ok settings)
  | (name, value) :: rest, settings =>
    match s.configurable.descriptor? name with
    | .error e => .error e
    | .ok none => .ok (.error name)
    | .ok (some d) => s.settings rest (settings.set d value)

end Service

end ProcessorBench
