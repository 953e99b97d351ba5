import ProcessorBench.Proofs.Lifecycle.Dispatch
import ProcessorBench.Proofs.Table
import ProcessorBench.Service.Registry

/-!
# How setting up a service fails

A service is set up in three steps: it is started, its values are matched with its properties, and
its hooks for `Added` are called.  Each step can fail, and the registry reports that as a failed
initialization.

* `Service.settings_cases` — values are matched in the order of their names, up to the first one
  that the service has no property for, or cannot look up.
* `Registry.Setup` — what the registry makes of a failure of each step, and what it leaves.
* `Registry.setup_surfaces` — so it is for every service and every registry where the identifier is
  free.  A value without a message passes through if the start fails with it, while hooks that fail
  with it are reported (`Registry.start_passes_through`).
-/

set_option autoImplicit false

namespace ProcessorBench

variable {υ : Type}

/-! ## Values and properties -/

namespace Service

/-- The service has a property with the name. -/
def Declares (s : Service υ) (name : Text) : Prop :=
  ∃ d, s.configurable.descriptor? name = .ok (some d)

variable {s : Service υ}

/-- Values for properties that the service has stand in the way of none that come later. -/
theorem settings_append {before : List (Text × Text)} (hbefore : ∀ e ∈ before, s.Declares e.1)
    (rest : List (Text × Text)) (settings : Settings) :
    ∃ settings', s.settings (before ++ rest) settings = s.settings rest settings' := by
  induction before generalizing settings with
  | nil => exact ⟨settings, rfl⟩
  | cons e before ih =>
    obtain ⟨d, hd⟩ := hbefore e List.mem_cons_self
    obtain ⟨settings', hrest⟩ :=
      ih (fun e' he' => hbefore e' (List.mem_cons_of_mem e he')) (settings.set d e.2)
    refine ⟨settings', ?_⟩
    rw [List.cons_append, Service.settings, hd]
    exact hrest

/-- The first name decides that the service has no property for, or cannot look up. -/
theorem settings_of_first {l before after : List (Text × Text)} {name value : Text}
    (hl : l = before ++ (name, value) :: after) (hbefore : ∀ e ∈ before, s.Declares e.1)
    (settings : Settings) :
    (s.configurable.descriptor? name = .ok none → s.settings l settings = .ok (.error name)) ∧
      ∀ e, s.configurable.descriptor? name = .error e → s.settings l settings = .error e := by
  obtain ⟨settings', hrest⟩ := settings_append hbefore ((name, value) :: after) settings
  rw [hl, hrest, Service.settings]
  refine ⟨fun hname => ?_, fun e hname => ?_⟩ <;> rw [hname]

/-- **Values are matched up to the first name that is in the way.** -/
theorem settings_cases (s : Service υ) (l : List (Text × Text)) (settings : Settings) :
    ((∀ e ∈ l, s.Declares e.1) ∧ ∃ settings', s.settings l settings = .ok (.ok settings')) ∨
    ∃ before name value after, l = before ++ (name, value) :: after ∧
      (∀ e ∈ before, s.Declares e.1) ∧
      (s.configurable.descriptor? name = .ok none ∨
        ∃ e, s.configurable.descriptor? name = .error e) := by
  induction l generalizing settings with
  | nil => exact .inl ⟨by simp, settings, rfl⟩
  | cons e rest ih =>
    obtain ⟨name, value⟩ := e
    cases hname : s.configurable.descriptor? name with
    | error e => exact .inr ⟨[], name, value, rest, rfl, by simp, .inr ⟨e, hname⟩⟩
    | ok d? =>
      cases d? with
      | none => exact .inr ⟨[], name, value, rest, rfl, by simp, .inl hname⟩
      | some d =>
        rw [Service.settings, hname]
        obtain ⟨hall, settings', hrest⟩ | ⟨before, name', value', after, rfl, hbefore, hfirst⟩ :=
          ih (settings.set d value)
        · refine .inl ⟨fun e he => ?_, settings', hrest⟩
          rcases List.mem_cons.1 he with rfl | he
          · exact ⟨d, hname⟩
          · exact hall e he
        · refine .inr ⟨(name, value) :: before, name', value', after, rfl, fun e he => ?_, hfirst⟩
          rcases List.mem_cons.1 he with rfl | he
          · exact ⟨d, hname⟩
          · exact hbefore e he

/-- How the hooks for `Added` are called, with the user's state that they find. -/
def callAdded (s : Service υ) (identifier : Text) (settings : Settings) (user : υ) :
    Except (Nat × Error) Unit × Arguments Configuration.signature × υ :=
  Hook.callAll .added 0 (s.component.hooks.due .added)
    [{ kind := (), value := ⟨identifier, settings⟩, readOnly := true }] user

/-- Nothing fails when the service is set up under the identifier. -/
def SetsUp (s : Service υ) (identifier : Text) (values : Table Text Text) (user : υ) : Prop :=
  ∃ started settings args added, s.startUnder identifier user = (.ok (), started) ∧
    s.settings values.entries {} = .ok (.ok settings) ∧
    s.callAdded identifier settings started = (.ok (), args, added)

end Service

namespace Registry

variable {r : Registry υ} {identifier : Text} {service : Service υ} {values : Table Text Text}
  {w : World υ} {user : υ}

/-! ## The steps, one by one -/

/-- A service that is handed over through its own type is bound to it. -/
theorem add_of_own (r : Registry υ) (identifier : Text) (service : Service υ)
    (values : Table Text Text) (w : World υ) :
    r.add identifier (some service) service.component values w =
      r.register identifier service ⟨some service.component⟩ values w := by
  have hbind : Target.bind service.component (some service.typeName) =
      .ok ⟨some service.component⟩ := by
    unfold Target.bind Service.typeName
    simp
  simp only [add, hbind]

variable (hunused : r.contains identifier = false)
include hunused

/-- Whatever the start fails with, nothing else is done. -/
theorem register_of_start_error (target : Target Configuration.signature υ) {e : Error}
    (hstart : service.startUnder identifier w.user = (.error e, user)) :
    ∃ w', r.register identifier service target values w =
        (.error (if e.isStandard then .serviceStart identifier e else e), r, w') ∧
      w'.user = user ∧ w'.log.of Component.logger = w.log.of Component.logger := by
  have hloggers : logger ≠ Component.logger := by decide
  unfold register
  rw [hunused, if_neg Bool.false_ne_true]
  dsimp only [World.note]
  rw [hstart]
  dsimp only
  cases e.isStandard with
  | false => exact ⟨_, rfl, by rfl, by simp [hloggers]⟩
  | true => exact ⟨_, rfl, by rfl, by simp [hloggers]⟩

/-- A name that the service has no property for, or cannot look up, ends the setup before a hook is
called. -/
theorem register_of_unmatched (target : Target Configuration.signature υ) {e : Error}
    (hstart : service.startUnder identifier w.user = (.ok (), user))
    (hunmatched : service.settings values.entries {} = .error e ∨
      ∃ name, service.settings values.entries {} = .ok (.error name) ∧
        e = .unsupportedProperty identifier name) :
    ∃ w', r.register identifier service target values w = (.error e, r, w') ∧
      w'.user = user ∧ w'.log.of Component.logger = w.log.of Component.logger := by
  have hloggers : logger ≠ Component.logger := by decide
  unfold register
  rw [hunused, if_neg Bool.false_ne_true]
  dsimp only [World.note]
  rw [hstart]
  dsimp only
  obtain hlookup | ⟨name, hname, rfl⟩ := hunmatched
  · rw [hlookup]
    exact ⟨_, rfl, by rfl, by simp [hloggers]⟩
  · rw [hname]
    exact ⟨_, rfl, by rfl, by simp [hloggers]⟩

/-- The hooks are called with the settings that are to be registered. -/
theorem register_of_matched {settings : Settings} {started : υ}
    (hstart : service.startUnder identifier w.user = (.ok (), started))
    (hsettings : service.settings values.entries {} = .ok (.ok settings)) :
    let g : Registration υ := { service, target := ⟨some service.component⟩, settings := settings }
    ∃ log, r.register identifier service ⟨some service.component⟩ values w =
      match g.fire identifier .added { user := started, log } with
      | (.error (.lifecycle _ typeName cause), w) =>
        (.error (.serviceAdded identifier typeName cause), r, w)
      | (.error e, w) => (.error e, r, w)
      | (.ok (), w) => (.ok (), r.put identifier g, w) := by
  unfold register
  rw [hunused, if_neg Bool.false_ne_true]
  dsimp only [World.note]
  rw [hstart]
  dsimp only
  rw [hsettings]
  exact ⟨_, rfl⟩

/-- Where the service starts and has all the properties, its hooks decide. -/
theorem register_of_called {settings : Settings} {answer : Except (Nat × Error) Unit}
    {args : Arguments Configuration.signature} {started : υ}
    (hstart : service.startUnder identifier w.user = (.ok (), started))
    (hsettings : service.settings values.entries {} = .ok (.ok settings))
    (hcalled : service.callAdded identifier settings started = (answer, args, user)) :
    ∃ w', w'.user = user ∧ r.register identifier service ⟨some service.component⟩ values w =
      match answer with
      | .error (_, e) => (.error (.serviceAdded identifier service.typeName e), r, w')
      | .ok () => (.ok (), r.put identifier
          { service, target := ⟨some service.component⟩, settings := settings }, w') := by
  obtain ⟨log, hrun⟩ := register_of_matched hunused hstart hsettings
  rw [hrun]
  unfold Registration.fire Target.invoke
  dsimp only
  obtain ⟨houtcome, hall⟩ | ⟨i, cause, houtcome, hall⟩ := service.component.invoke_cases .added
    [{ kind := (), value := ⟨identifier, settings⟩, readOnly := true }] started log
  · cases hcalled.symm.trans hall
    rw [houtcome]
    exact ⟨_, by rfl, rfl⟩
  · cases hcalled.symm.trans hall
    rw [houtcome]
    exact ⟨_, by rfl, rfl⟩

end Registry

/-! ## What the registry makes of a failure -/

namespace Registry

/-- The registry reports a failed initialization with the cause, if there is one, and is as before.
Of the user's state is left what the steps left that were taken. -/
structure Reports (r : Registry υ) (x : Except Error Unit × Registry υ × World υ) (e : Error)
    (cause : Option Error) (user : υ) : Prop where
  answer : x.1 = .error e
  kind : e.kind = .initialization
  cause : e.cause? = cause
  registry : x.2.1 = r
  user : x.2.2.user = user

/-- What comes of setting up a service under an identifier. -/
structure Setup (r : Registry υ) (identifier : Text) (service : Service υ)
    (values : Table Text Text) (w : World υ) (x : Except Error Unit × Registry υ × World υ) :
    Prop where
  /-- The start fails with an error that has a message. -/
  startFails : ∀ e user, service.startUnder identifier w.user = (.error e, user) →
    e.isStandard = true → r.Reports x (.serviceStart identifier e) (some e) user
  /-- The start fails with a value without a message, which passes through. -/
  startThrows : ∀ e user, service.startUnder identifier w.user = (.error e, user) →
    e.isStandard = false → x.1 = .error e ∧ x.2.1 = r ∧ x.2.2.user = user
  /-- The service starts, and there is a first name for which it has no property.  No hook is
  called, nor is it noted that one was. -/
  undeclared : ∀ user before name value after,
    service.startUnder identifier w.user = (.ok (), user) →
    values.entries = before ++ (name, value) :: after → (∀ e ∈ before, service.Declares e.1) →
    service.configurable.descriptor? name = .ok none →
    r.Reports x (.unsupportedProperty identifier name) none user ∧
      x.2.2.log.of Component.logger = w.log.of Component.logger
  /-- The service starts and has all the properties, and a hook for `Added` fails, with whatever
  value. -/
  hookFails : ∀ started settings i e args user,
    service.startUnder identifier w.user = (.ok (), started) →
    service.settings values.entries {} = .ok (.ok settings) →
    service.callAdded identifier settings started = (.error (i, e), args, user) →
    r.Reports x (.serviceAdded identifier service.typeName e) (some e) user
  /-- Nothing fails. -/
  succeeds : service.SetsUp identifier values w.user →
    x.1 = .ok () ∧ x.2.1.contains identifier = true
  /-- Nothing else is reported but what passes through. -/
  otherwise : ∀ e, x.1 = .error e → e.kind = .initialization ∨
    (∃ user, service.startUnder identifier w.user = (.error e, user) ∧ e.isStandard = false) ∨
    ∃ name ∈ values.keys, service.configurable.descriptor? name = .error e
  /-- After any failure the registry is as before, and the identifier can be used. -/
  again : ∀ e, x.1 = .error e → x.2.1 = r ∧
    ∀ (service' : Service υ) (values' : Table Text Text) (w' : World υ),
      service'.SetsUp identifier values' w'.user →
      (x.2.1.add identifier (some service') service'.component values' w').1 = .ok ()

variable {r : Registry υ} {identifier : Text} {service : Service υ} {values : Table Text Text}
  {w : World υ}

/-- Where nothing fails, the service is added. -/
theorem add_of_setsUp (hunused : r.contains identifier = false)
    (hsetsUp : service.SetsUp identifier values w.user) :
    let x := r.add identifier (some service) service.component values w
    x.1 = .ok () ∧ x.2.1.contains identifier = true := by
  obtain ⟨started, settings, args, user, hstart, hsettings, hcalled⟩ := hsetsUp
  obtain ⟨w', -, hrun⟩ := register_of_called hunused hstart hsettings hcalled
  rw [add_of_own, hrun]
  refine ⟨rfl, ?_⟩
  show (Table.get? _ identifier).isSome = true
  rw [put, Table.get?_insert, if_pos rfl, Option.isSome_some]

/-- A failed setup leaves the registry, and is reported unless the value that ended it passes
through. -/
theorem add_of_error (hunused : r.contains identifier = false) {e : Error}
    (hfails : (r.add identifier (some service) service.component values w).1 = .error e) :
    (r.add identifier (some service) service.component values w).2.1 = r ∧
      (e.kind = .initialization ∨
        (∃ user, service.startUnder identifier w.user = (.error e, user) ∧
          e.isStandard = false) ∨
        ∃ name ∈ values.keys, service.configurable.descriptor? name = .error e) := by
  rw [add_of_own] at hfails ⊢
  rcases hstart : service.startUnder identifier w.user with ⟨answer, started⟩
  cases answer with
  | error thrown =>
    obtain ⟨w', hrun, -⟩ := register_of_start_error hunused ⟨some service.component⟩ hstart
    cases hstandard : thrown.isStandard with
    | true =>
      rw [hstandard, if_pos rfl] at hrun
      rw [hrun] at hfails ⊢
      cases hfails
      exact ⟨rfl, .inl rfl⟩
    | false =>
      rw [hstandard, if_neg Bool.false_ne_true] at hrun
      rw [hrun] at hfails ⊢
      cases hfails
      exact ⟨rfl, .inr (.inl ⟨started, rfl, hstandard⟩)⟩
  | ok =>
    obtain ⟨-, settings, hsettings⟩ | ⟨before, name, value, after, hentries, hbefore, hname⟩ :=
      service.settings_cases values.entries {}
    · rcases hcalled : service.callAdded identifier settings started with ⟨called, args, user⟩
      obtain ⟨w', -, hrun⟩ := register_of_called hunused hstart hsettings hcalled
      rw [hrun] at hfails ⊢
      cases called with
      | ok => cases hfails
      | error thrown =>
        cases hfails
        exact ⟨rfl, .inl rfl⟩
    · obtain ⟨hundeclared, hlookup⟩ :=
        Service.settings_of_first hentries hbefore {}
      obtain hname | ⟨thrown, hname⟩ := hname
      · obtain ⟨w', hrun, -⟩ := register_of_unmatched hunused ⟨some service.component⟩ hstart
          (.inr ⟨name, hundeclared hname, rfl⟩)
        rw [hrun] at hfails ⊢
        cases hfails
        exact ⟨rfl, .inl rfl⟩
      · obtain ⟨w', hrun, -⟩ := register_of_unmatched hunused ⟨some service.component⟩ hstart
          (.inl (hlookup thrown hname))
        rw [hrun] at hfails ⊢
        cases hfails
        exact ⟨rfl, .inr (.inr ⟨name, Table.mem_keys_of_entries hentries, hname⟩)⟩

/-- **A setup that fails is reported as such, unless the start fails with a value that has no
message or a property cannot be looked up.**  Whatever the service is and does: what the start
raises with a message, and whatever the hooks for `Added` end with, comes with the report as its
cause; the first name in the order of the names that the service has no property for is reported
without a cause, and no hook is called.  The registry stays as it was, and the identifier can be
used again. -/
theorem setup_surfaces (r : Registry υ) (identifier : Text) (service : Service υ)
    (values : Table Text Text) (w : World υ) (hunused : r.contains identifier = false) :
    r.Setup identifier service values w
      (r.add identifier (some service) service.component values w) where
  startFails e user hstart hstandard := by
    obtain ⟨w', hrun, huser, -⟩ :=
      register_of_start_error hunused ⟨some service.component⟩ hstart
    rw [hstandard, if_pos rfl] at hrun
    rw [add_of_own, hrun]
    exact ⟨rfl, rfl, rfl, rfl, huser⟩
  startThrows e user hstart hstandard := by
    obtain ⟨w', hrun, huser, -⟩ :=
      register_of_start_error hunused ⟨some service.component⟩ hstart
    rw [hstandard, if_neg Bool.false_ne_true] at hrun
    rw [add_of_own, hrun]
    exact ⟨rfl, rfl, huser⟩
  undeclared user before name value after hstart hentries hbefore hname := by
    obtain ⟨w', hrun, huser, hlog⟩ :=
      register_of_unmatched hunused ⟨some service.component⟩ hstart
        (.inr ⟨name, (Service.settings_of_first hentries hbefore {}).1 hname, rfl⟩)
    rw [add_of_own, hrun]
    exact ⟨⟨rfl, rfl, rfl, rfl, huser⟩, hlog⟩
  hookFails started settings i e args user hstart hsettings hcalled := by
    obtain ⟨w', huser, hrun⟩ := register_of_called hunused hstart hsettings hcalled
    rw [add_of_own, hrun]
    exact ⟨rfl, rfl, rfl, rfl, huser⟩
  succeeds := add_of_setsUp hunused
  otherwise _ hfails := (add_of_error hunused hfails).2
  again _ hfails := by
    have hregistry := (add_of_error hunused hfails).1
    rw [hregistry]
    exact ⟨rfl, fun _ _ _ hsetsUp => (add_of_setsUp hunused hsetsUp).1⟩

/-- A hook that fails with a value without a message. -/
theorem setup_surfaces_of_failing_hook :
    let component : Component Configuration.signature Unit :=
      { typeName := [65], hooks := [(.added, .plain fun _ => (.error .foreign, ()))] }
    let service : Service Unit :=
      { component
        identifier := fun _ => []
        learn := fun _ _ => ()
        configurable := .ofReview fun _ => .ok [] }
    let r : Registry Unit := {}
    let w : World Unit := { user := () }
    r.contains [115] = false ∧
      r.Reports (r.add [115] (some service) component ∅ w)
        (.serviceAdded [115] [65] .foreign) (some .foreign) () := by
  intro component service r w
  refine ⟨rfl, ?_⟩
  exact (setup_surfaces r [115] service ∅ w rfl).hookFails () {} 0 .foreign
    [{ kind := (), value := ⟨[115], {}⟩, readOnly := true }] () rfl rfl rfl

/-- A start that fails with the same value. -/
theorem start_passes_through :
    let component : Component Configuration.signature Unit := { typeName := [65] }
    let service : Service Unit :=
      { component
        identifier := fun _ => []
        learn := fun _ _ => ()
        start := fun _ _ => (.error .foreign, ())
        configurable := .ofReview fun _ => .ok [] }
    let r : Registry Unit := {}
    let w : World Unit := { user := () }
    r.contains [97] = false ∧ (service.startUnder [97] w.user).1 = .error .foreign ∧
      (r.add [97] (some service) component ∅ w).1 = .error .foreign ∧
      Error.foreign.kind ≠ .initialization := by
  intro component service r w
  exact ⟨rfl, rfl, by rfl, nofun⟩

end Registry

end ProcessorBench
