import ProcessorBench.Service.Basic
import ProcessorBench.World

/-!
# The service registry

The registry keeps services under identifiers.  A service is disabled when it is added; only a
disabled one can be configured or removed, and its hooks are called at each step of its life.
Every operation leaves a registry and a world, also when it fails.  A request to change a service
that is not there is noted; a question about one is not.
-/

namespace ProcessorBench

/-- What the registry keeps of a service. -/
structure Registration (υ : Type) where
  service : Service υ
  target : Target Configuration.signature υ
  settings : Settings := {}
  enabled : Bool := false

structure Registry (υ : Type) where
  /-- The registrations, by identifier. -/
  registrations : Table Text (Registration υ) := ∅

/-- Calls the hooks of the service that are due at the phase. -/
def Registration.fire {υ : Type} (g : Registration υ) (identifier : Text) (phase : Phase)
    (w : World υ) : Except Error Unit × World υ :=
  let configuration : Configuration := ⟨identifier, g.settings⟩
  let args := [{ kind := (), value := configuration, readOnly := true }]
  let r := g.target.invoke phase args w.user w.log
  (r.outcome, { user := r.state, log := r.log })

namespace Registry

variable {υ : Type}

def logger : Text := "ServiceRegistry"

/-! ## Questions -/

def contains (r : Registry υ) (identifier : Text) : Bool := r.registrations.contains identifier

/-- The registration under the identifier. -/
def lookup (r : Registry υ) (identifier : Text) : Except Error (Registration υ) :=
  match r.registrations.get? identifier with
  | none => .error (.service (.unknown identifier))
  | some g => .ok g

def isEnabled (r : Registry υ) (identifier : Text) : Except Error Bool :=
  (r.lookup identifier).map (·.enabled)

def service (r : Registry υ) (identifier : Text) : Except Error (Service υ) :=
  (r.lookup identifier).map (·.service)

/-- The service, if it can be used through the named type. -/
def typedService (r : Registry υ) (identifier requested : Text) : Except Error (Service υ) :=
  match r.service identifier with
  | .error e => .error e
  | .ok s =>
    if s.isA requested then .ok s
    else .error (.service (.cast identifier s.typeName requested))

def settings (r : Registry υ) (identifier : Text) : Except Error Settings :=
  (r.lookup identifier).map (·.settings)

/-- The value of a property, or its default. -/
def value? (r : Registry υ) (identifier name : Text) : Except Error (Option Text) :=
  match r.lookup identifier with
  | .error e => .error e
  | .ok g => g.service.configurable.value? g.settings name

def annotationData (r : Registry υ) (identifier : Text) : Except Error (Option Text) :=
  (r.lookup identifier).map (·.settings.annotationData)

/-- All identifiers, in ascending order. -/
def identifiers (r : Registry υ) : List Text := r.registrations.keys

/-- A service is there under the identifier, and it is enabled. -/
def hasEnabled (r : Registry υ) (identifier : Text) : Bool :=
  (r.registrations.get? identifier).any (·.enabled)

/-- The judgement of the service on its configuration. -/
def validate (r : Registry υ) (identifier : Text) : Except Error (List Verdict) :=
  match r.lookup identifier with
  | .error e => .error e
  | .ok g =>
    g.service.configurable.validate { settings := g.settings, serviceEnabled := r.hasEnabled }

/-! ## Changes -/

/-- The registry with another registration under the identifier. -/
def put (r : Registry υ) (identifier : Text) (g : Registration υ) : Registry υ :=
  ⟨r.registrations.insert identifier g⟩

/-- The registration that is to be changed; that there is none is noted. -/
def demand (r : Registry υ) (identifier : Text) (w : World υ) :
    Except Error (Registration υ) × World υ :=
  match r.registrations.get? identifier with
  | none =>
    (.error (.service (.unknown identifier)), w.note logger .error <|
      Text.join ["ServiceRegistry: unknown identifier '", identifier, "'"])
  | some g => (.ok g, w)

/-- The registration whose configuration is to be changed, which only a disabled service allows. -/
def demandDisabled (r : Registry υ) (identifier : Text) (change : Error.Change) (w : World υ) :
    Except Error (Registration υ) × World υ :=
  match r.demand identifier w with
  | (.error e, w) => (.error e, w)
  | (.ok g, w) =>
    if g.enabled then
      (.error (.service (.frozen change identifier)), w.note logger .error <|
        Text.join ["ServiceRegistry::", change.name, ": service '", identifier, "' is enabled"])
    else (.ok g, w)

/-- Enables a disabled service, if its hooks let it. -/
def enable (r : Registry υ) (identifier : Text) (w : World υ) :
    Except Error Unit × Registry υ × World υ :=
  match r.demand identifier w with
  | (.error e, w) => (.error e, r, w)
  | (.ok g, w) =>
    if g.enabled then
      (.error (.service (.alreadyEnabled identifier)), r, w.note logger .error <|
        Text.join ["ServiceRegistry::Enable: service '", identifier, "' is already enabled"])
    else
      let w := w.note logger .debug <|
        Text.join ["ServiceRegistry::Enable: enabling service '", identifier, "'"]
      match g.fire identifier .enabled w with
      | (.error e, w) => (.error e, r, w)
      | (.ok (), w) => (.ok (), r.put identifier { g with enabled := true }, w)

/-- Disables an enabled service, also if its hooks fail. -/
def disable (r : Registry υ) (identifier : Text) (w : World υ) :
    Except Error Unit × Registry υ × World υ :=
  match r.demand identifier w with
  | (.error e, w) => (.error e, r, w)
  | (.ok g, w) =>
    if !g.enabled then
      (.error (.service (.notEnabled identifier)), r, w.note logger .error <|
        Text.join ["ServiceRegistry::Disable: service '", identifier, "' is not enabled"])
    else
      let w := w.note logger .debug <|
        Text.join ["ServiceRegistry::Disable: disabling service '", identifier, "'"]
      let (outcome, w) := g.fire identifier .disabled w
      (outcome, r.put identifier { g with enabled := false }, w)

/-- Removes a disabled service, if its hooks let it. -/
def remove (r : Registry υ) (identifier : Text) (w : World υ) :
    Except Error Unit × Registry υ × World υ :=
  match r.demand identifier w with
  | (.error e, w) => (.error e, r, w)
  | (.ok g, w) =>
    if g.enabled then
      (.error (.service (.stillEnabled identifier)), r, w.note logger .error <|
        Text.join ["ServiceRegistry::Remove: service '", identifier, "' is still enabled"])
    else
      let w := w.note logger .debug <|
        Text.join ["ServiceRegistry::Remove: removing service '", identifier, "'"]
      match g.fire identifier .removed w with
      | (.error e, w) => (.error e, r, w)
      | (.ok (), w) => (.ok (), ⟨r.registrations.erase identifier⟩, w)

/-- Sets a property of a disabled service.  An invalid value is stored all the same, and noted. -/
def setProperty (r : Registry υ) (identifier : Text) (d : Descriptor) (value : Text) (w : World υ) :
    Except Error Verdict × Registry υ × World υ :=
  match r.demandDisabled identifier .setProperty w with
  | (.error e, w) => (.error e, r, w)
  | (.ok g, w) =>
    let verdict := d.validate (some value)
    let w := if verdict.valid then w else w.note logger .warn <|
      Text.join ["ServiceRegistry::SetProperty: '", d.name, "' on service '", identifier,
        "' is invalid: ", verdict.explanation]
    (.ok verdict, r.put identifier { g with settings := g.settings.set d value }, w)

/-- Sets a property by its name.  A name that the service has no property for is rejected, and
nothing is stored. -/
def setPropertyByName (r : Registry υ) (identifier name value : Text) (w : World υ) :
    Except Error Verdict × Registry υ × World υ :=
  match r.demandDisabled identifier .setProperty w with
  | (.error e, w) => (.error e, r, w)
  | (.ok g, w) =>
    match g.service.configurable.descriptor? name with
    | .error e => (.error e, r, w)
    | .ok none =>
      let refusal := Text.join ["'", name, "' is not a supported property of controller service '",
        identifier, "'"]
      (.ok (.reject name value refusal), r, w)
    | .ok (some d) => r.setProperty identifier d value w

/-- Forgets a property of a disabled service and tells whether it was set. -/
def removeProperty (r : Registry υ) (identifier name : Text) (w : World υ) :
    Except Error Bool × Registry υ × World υ :=
  match r.demandDisabled identifier .removeProperty w with
  | (.error e, w) => (.error e, r, w)
  | (.ok g, w) =>
    let (found, settings) := g.settings.remove name
    (.ok found, r.put identifier { g with settings }, w)

def annotate (r : Registry υ) (identifier : Text) (annotationData : Option Text) (w : World υ) :
    Except Error Unit × Registry υ × World υ :=
  match r.demandDisabled identifier .setAnnotationData w with
  | (.error e, w) => (.error e, r, w)
  | (.ok g, w) =>
    (.ok (), r.put identifier { g with settings := g.settings.annotate annotationData }, w)

/-! ## Adding -/

/-- Starts a bound service and registers it with the given values.  Whatever goes wrong, nothing is
registered. -/
def register (r : Registry υ) (identifier : Text) (service : Service υ)
    (target : Target Configuration.signature υ) (values : Table Text Text) (w : World υ) :
    Except Error Unit × Registry υ × World υ :=
  if r.contains identifier then
    (.error (.service (.duplicate identifier)), r, w.note logger .error <|
      Text.join ["ServiceRegistry::Add: identifier '", identifier, "' is already in use"])
  else
    let w := w.note logger .debug <|
      Text.join ["ServiceRegistry::Add: adding service '", identifier, "' of type '",
        target.typeName, "'"]
    match service.startUnder identifier w.user with
    | (.error e, user) =>
      let w := { w with user }
      -- a value without a message is no failure that the registry knows how to report
      if !e.isStandard then (.error e, r, w)
      else
        (.error (.serviceStart identifier e), r, w.note logger .error <|
          Text.join ["ServiceRegistry::Add: initialization of service '", identifier,
            "' failed: ", e.message])
    | (.ok (), user) =>
      let w := { w with user }
      match service.settings values.entries {} with
      | .error e => (.error e, r, w)
      | .ok (.error name) =>
        (.error (.unsupportedProperty identifier name), r, w.note logger .error <|
          Text.join ["ServiceRegistry::Add: service '", identifier,
            "' does not support the property '", name, "'"])
      | .ok (.ok settings) =>
        let g : Registration υ := { service, target, settings := settings }
        match g.fire identifier .added w with
        | (.error (.lifecycle _ typeName cause), w) =>
          (.error (.serviceAdded identifier typeName cause), r, w)
        | (.error e, w) => (.error e, r, w)
        | (.ok (), w) => (.ok (), r.put identifier g, w)

/-- Adds a service that is handed over through a type; the service may not be missing, and the type
must be its own. -/
def add (r : Registry υ) (identifier : Text) (service : Option (Service υ))
    (declared : Component Configuration.signature υ) (values : Table Text Text) (w : World υ) :
    Except Error Unit × Registry υ × World υ :=
  match service with
  | none => (.error (.argument .noService), r, w)
  | some service =>
    match Target.bind declared (some service.typeName) with
    | .error e => (.error e, r, w)
    | .ok target => r.register identifier service target values w

end Registry

end ProcessorBench
