import ProcessorBench.Proofs.Service.Frozen
import ProcessorBench.Proofs.Service.Setup
import ProcessorBench.Proofs.Property.Judgement

/-!
# When a service is added, and what is registered then

Adding a service takes steps, one after the other: the service must be there and come through its
own type, the identifier must be free, the service is started, its values are matched with its
properties, and its hooks for `Added` are called.

* `Settings.Assigned`, `Service.Offers.assigned_of_settings` — what values that are matched with
  properties make of settings.
* `Registry.Addition` — the step that fails first decides, and no later one is taken; where none
  fails, what is registered is what the hooks were shown.
* `Registry.add_decides` — so it is in every registry, for every service that has fixed properties
  and for all values.
-/

set_option autoImplicit false

namespace ProcessorBench

variable {υ : Type}

/-! ## Values under properties -/

/-- The settings are the values, each under the property that is declared for its name. -/
structure Settings.Assigned (s : Settings) (declared : Text → Option Descriptor)
    (values : Table Text Text) : Prop where
  /-- The same names, in their order, with the same values. -/
  values : s.toList.map (fun e => (e.descriptor.name, e.value)) = values.entries
  /-- Each value stands under the declared property. -/
  descriptors : ∀ e ∈ s.toList, declared e.descriptor.name = some e.descriptor
  annotationData : s.annotationData = none

/-- Settings are told by what is found under each name. -/
theorem Settings.assigned_of_find? {s : Settings} {declared : Text → Option Descriptor}
    {values : Table Text Text} (hnote : s.annotationData = none)
    (hfind : ∀ name, s.find? name = (values.get? name).bind fun value =>
      (declared name).map fun d => ⟨d, value⟩)
    (hdeclared : ∀ name ∈ values.keys, (declared name).isSome = true) :
    s.Assigned declared values where
  values := by
    have htable : s.table.filterMap (fun e => some e.value) = values := by
      refine Table.ext_get? fun name => ?_
      rw [Table.get?_filterMap]
      show (s.find? name).bind _ = _
      rw [hfind]
      cases hvalue : values.get? name with
      | none => rfl
      | some value =>
        have hkey : name ∈ values.keys := by
          rw [Table.mem_keys, hvalue]
          rfl
        obtain ⟨d, hd⟩ := Option.isSome_iff_exists.1 (hdeclared name hkey)
        simp [hd]
    rw [← htable]
    show s.toList.map _ = s.table.entries.filterMap (some ∘ fun e => (e.1, e.2.value))
    unfold toList Table.values
    rw [List.filterMap_eq_map, List.map_map]
    exact List.map_congr_left fun e he => Prod.ext (s.named e he) rfl
  descriptors e he := by
    have hname := Settings.mem_toList.1 he
    rw [hfind] at hname
    obtain ⟨value, -, hvalue⟩ := Option.bind_eq_some_iff.1 hname
    obtain ⟨d, hd, rfl⟩ := Option.map_eq_some_iff.1 hvalue
    exact hd
  annotationData := hnote

theorem Settings.Assigned.find? {s : Settings} {declared : Text → Option Descriptor}
    {values : Table Text Text} (h : s.Assigned declared values) (name : Text) :
    s.find? name = (values.get? name).bind fun value =>
      (declared name).map fun d => ⟨d, value⟩ := by
  cases hfind : s.find? name with
  | some e =>
    obtain rfl := name_of_find? hfind
    have he := Settings.mem_toList.2 hfind
    have hvalue : (e.descriptor.name, e.value) ∈ values.entries := by
      rw [← h.values]
      exact List.mem_map_of_mem he
    rw [(values.mem_entries _ _).1 hvalue, h.descriptors e he]
    rfl
  | none =>
    cases hvalue : values.get? name with
    | none => rfl
    | some value =>
      have hmem := (values.mem_entries _ _).2 hvalue
      rw [← h.values] at hmem
      obtain ⟨e, he, hpair⟩ := List.mem_map.1 hmem
      obtain rfl : e.descriptor.name = name := congrArg Prod.fst hpair
      rw [Settings.mem_toList.1 he] at hfind
      cases hfind

/-- Each name is that of a property. -/
theorem Settings.Assigned.declared {s : Settings} {declared : Text → Option Descriptor}
    {values : Table Text Text} (h : s.Assigned declared values) :
    ∀ name ∈ values.keys, (declared name).isSome = true := by
  unfold Table.keys
  rw [← h.values, List.map_map]
  intro name hname
  obtain ⟨e, he, rfl⟩ := List.mem_map.1 hname
  show (declared e.descriptor.name).isSome = true
  rw [h.descriptors e he]
  rfl

/-- There are no two settings to which the same values are assigned. -/
theorem Settings.Assigned.unique {s s' : Settings} {declared : Text → Option Descriptor}
    {values : Table Text Text} (h : s.Assigned declared values)
    (h' : s'.Assigned declared values) : s = s' := by
  have htable : s.table = s'.table :=
    Table.ext_get? fun name => (h.find? name).trans (h'.find? name).symm
  have hnote : s.annotationData = s'.annotationData :=
    h.annotationData.trans h'.annotationData.symm
  cases s
  cases s'
  cases htable
  cases hnote
  rfl

namespace Service

/-- The properties of the service are fixed: each is the one that is declared for its name. -/
structure Offers (s : Service υ) (declared : Text → Option Descriptor) : Prop where
  lookup : ∀ name, s.configurable.descriptor? name = .ok (declared name)
  named : ∀ name d, declared name = some d → d.name = name

variable {s : Service υ} {declared : Text → Option Descriptor}

/-- A service with a list of properties has them fixed: the first one of a name counts. -/
theorem offers_of_descriptors {supported : List Descriptor}
    {custom : Review → Except Error (List Verdict)}
    (h : s.configurable = .ofDescriptors (.ok supported) custom) :
    s.Offers fun name => supported.find? fun d => d.name = name where
  lookup name := by
    rw [h]
    rfl
  named name d hd := by simpa using List.find?_some hd

theorem Offers.declares_iff (h : s.Offers declared) {name : Text} :
    s.Declares name ↔ (declared name).isSome = true := by
  unfold Declares
  rw [h.lookup, Option.isSome_iff_exists]
  simp

/-- Matching goes through the values in their order, so that of one name the last would count; but
no name comes twice. -/
theorem Offers.find?_settings (h : s.Offers declared) {l : List (Text × Text)}
    (hl : Table.Entries.Ascending l) {settings settings' : Settings}
    (hok : s.settings l settings = .ok (.ok settings')) :
    settings'.annotationData = settings.annotationData ∧
      ∀ name, settings'.find? name = ((Table.Entries.find? name l).bind fun value =>
        (declared name).map fun d => ⟨d, value⟩).or (settings.find? name) := by
  induction l generalizing settings with
  | nil =>
    cases hok
    exact ⟨rfl, fun _ => rfl⟩
  | cons e rest ih =>
    obtain ⟨key, value⟩ := e
    rw [Service.settings, h.lookup] at hok
    cases hkey : declared key with
    | none =>
      rw [hkey] at hok
      cases hok
    | some d =>
      rw [hkey] at hok
      obtain rfl := h.named key d hkey
      obtain ⟨hnote, hfind⟩ := ih (List.pairwise_cons.1 hl).2 hok
      refine ⟨hnote, fun name => ?_⟩
      rw [hfind, Table.Entries.find?]
      have hset : (settings.set d value).find? name =
          if name = d.name then some ⟨d, value⟩ else settings.find? name :=
        Table.get?_insert _ _ _ _
      rw [hset]
      by_cases hname : name = d.name
      · subst hname
        -- what was just set is not set again: the keys ascend
        have hnone : Table.Entries.find? d.name rest = none := Table.Entries.find?_of_ascending hl
        simp [hnone, hkey]
      · simp [hname]

/-- **Values that are matched with properties are assigned to them.** -/
theorem Offers.assigned_of_settings (h : s.Offers declared) {values : Table Text Text}
    {settings : Settings} (hok : s.settings values.entries {} = .ok (.ok settings))
    (hdeclared : ∀ name ∈ values.keys, (declared name).isSome = true) :
    settings.Assigned declared values := by
  obtain ⟨hnote, hfind⟩ := h.find?_settings values.ascending hok
  refine Settings.assigned_of_find? hnote (fun name => ?_) hdeclared
  rw [hfind]
  exact Option.or_none

end Service

namespace Registry

/-! ## Steps that are not taken -/

/-- The request fails and leaves the registry; of the user's state is left what the steps left that
were taken, and it is not noted that a hook was called. -/
structure Stops (r : Registry υ) (w : World υ) (x : Except Error Unit × Registry υ × World υ)
    (e : Error) (user : υ) : Prop where
  answer : x.1 = .error e
  registry : x.2.1 = r
  user : x.2.2.user = user
  silent : x.2.2.log.of Component.logger = w.log.of Component.logger

variable {r : Registry υ} {identifier : Text} {service : Service υ} {values : Table Text Text}
  {w : World υ} {user : υ}

/-- Under an identifier that is in use nothing is started. -/
theorem register_of_used (hused : r.contains identifier = true)
    (target : Target Configuration.signature υ) :
    r.Stops w (r.register identifier service target values w)
      (.service (.duplicate identifier)) w.user := by
  have hloggers : logger ≠ Component.logger := by decide
  unfold register
  rw [if_pos hused]
  exact ⟨rfl, rfl, rfl, by simp [World.note, hloggers]⟩

variable (hunused : r.contains identifier = false)
include hunused

/-- A service that does not start is not configured, and its hooks are not called. -/
theorem register_of_unstarted (target : Target Configuration.signature υ) {e : Error}
    (hstart : service.startUnder identifier w.user = (.error e, user)) :
    r.Stops w (r.register identifier service target values w)
      (if e.isStandard then .serviceStart identifier e else e) user := by
  obtain ⟨w', hrun, huser, hlog⟩ := register_of_start_error hunused target hstart
  rw [hrun]
  exact ⟨rfl, rfl, huser, hlog⟩

/-- If the hooks do not fail, what they were shown is registered. -/
theorem register_shows {settings : Settings} {started : υ}
    (hstart : service.startUnder identifier w.user = (.ok (), started))
    (hsettings : service.settings values.entries {} = .ok (.ok settings))
    (hok : (r.register identifier service ⟨some service.component⟩ values w).1 = .ok ()) :
    let g : Registration υ := { service, target := ⟨some service.component⟩, settings := settings }
    (r.register identifier service ⟨some service.component⟩ values w).2.1 = r.put identifier g ∧
      g.Shows .added ⟨identifier, settings⟩ started
        (r.register identifier service ⟨some service.component⟩ values w) := by
  intro g
  obtain ⟨log, hrun⟩ := register_of_matched hunused hstart hsettings
  rw [hrun] at hok ⊢
  rcases hfire : g.fire identifier .added { user := started, log } with ⟨answer, w'⟩
  cases answer with
  | ok =>
    have hanswer := congrArg Prod.fst hfire
    have hworld := congrArg Prod.snd hfire
    exact ⟨rfl, log, hanswer.symm, hworld.symm⟩
  | error e =>
    have hfailed : (g.fire identifier .added { user := started, log }).1 = .error e := by rw [hfire]
    rw [hfire] at hok
    cases e <;> cases hok

end Registry

/-! ## The step that fails first -/

namespace Registry

/-- What comes of adding a service that is there and comes through its own type. -/
structure Addition (r : Registry υ) (identifier : Text) (service : Service υ)
    (declared : Text → Option Descriptor) (values : Table Text Text) (w : World υ)
    (x : Except Error Unit × Registry υ × World υ) : Prop where
  /-- The service is added exactly if the identifier is free, the service starts, every name is that
  of a property, and no hook fails on what it is shown then. -/
  succeeds : x.1 = .ok () ↔ r.contains identifier = false ∧
    (service.startUnder identifier w.user).1 = .ok () ∧
    (∀ name ∈ values.keys, (declared name).isSome = true) ∧
    ∀ settings : Settings, settings.Assigned declared values →
      (service.callAdded identifier settings (service.startUnder identifier w.user).2).1 = .ok ()
  /-- It is registered disabled, with the values under its properties, valid or not, and these are
  what its hooks were shown. -/
  registered : x.1 = .ok () → ∃ g : Registration υ, x.2.1 = r.put identifier g ∧
    g.service = service ∧ g.target.component = some service.component ∧ g.enabled = false ∧
    g.settings.Assigned declared values ∧
    g.Shows .added ⟨identifier, g.settings⟩ (service.startUnder identifier w.user).2 x
  /-- A used identifier decides before the service is started. -/
  used : r.contains identifier = true → r.Stops w x (.service (.duplicate identifier)) w.user
  /-- A start that fails decides before the values are looked at. -/
  unstarted : r.contains identifier = false →
    ∀ e user, service.startUnder identifier w.user = (.error e, user) →
    r.Stops w x (if e.isStandard then .serviceStart identifier e else e) user
  /-- The first name that is not that of a property decides before a hook is called. -/
  undeclared : r.contains identifier = false →
    ∀ user, service.startUnder identifier w.user = (.ok (), user) →
    ∀ before name value after, values.entries = before ++ (name, value) :: after →
    (∀ e ∈ before, (declared e.1).isSome = true) → declared name = none →
    r.Stops w x (.unsupportedProperty identifier name) user
  /-- The first hook that fails decides at last. -/
  hookFails : r.contains identifier = false →
    ∀ started, service.startUnder identifier w.user = (.ok (), started) →
    ∀ settings : Settings, settings.Assigned declared values →
    ∀ i e args user, service.callAdded identifier settings started = (.error (i, e), args, user) →
    x.1 = .error (.serviceAdded identifier service.typeName e) ∧ x.2.1 = r ∧ x.2.2.user = user

variable {r : Registry υ} {identifier : Text} {service : Service υ} {values : Table Text Text}
  {w : World υ} {user : υ} {declared : Text → Option Descriptor}

/-- Values are matched exactly if every name is that of a property; else the first one decides that
is not. -/
theorem matched_or_undeclared (hoffers : service.Offers declared) (values : Table Text Text) :
    (∃ settings, service.settings values.entries {} = .ok (.ok settings) ∧
      (∀ name ∈ values.keys, (declared name).isSome = true) ∧
      settings.Assigned declared values) ∨
    ∃ before name value after, values.entries = before ++ (name, value) :: after ∧
      (∀ e ∈ before, (declared e.1).isSome = true) ∧ declared name = none := by
  obtain ⟨hall, settings, hsettings⟩ | ⟨before, name, value, after, hentries, hbefore, hname⟩ :=
    service.settings_cases values.entries {}
  · have hdeclared : ∀ name ∈ values.keys, (declared name).isSome = true := by
      intro name hname
      obtain ⟨e, he, rfl⟩ := List.mem_map.1 hname
      exact hoffers.declares_iff.1 (hall e he)
    exact .inl ⟨settings, hsettings, hdeclared, hoffers.assigned_of_settings hsettings hdeclared⟩
  · refine .inr ⟨before, name, value, after, hentries,
      fun e he => hoffers.declares_iff.1 (hbefore e he), ?_⟩
    simpa [hoffers.lookup] using hname

theorem matched_of_declared (hoffers : service.Offers declared) {values : Table Text Text}
    (hdeclared : ∀ name ∈ values.keys, (declared name).isSome = true) :
    ∃ settings, service.settings values.entries {} = .ok (.ok settings) ∧
      settings.Assigned declared values := by
  obtain ⟨settings, hsettings, -, hassigned⟩ | ⟨before, name, value, after, hentries, -, hname⟩ :=
    matched_or_undeclared hoffers values
  · exact ⟨settings, hsettings, hassigned⟩
  · have hsome := hdeclared name (Table.mem_keys_of_entries hentries)
    rw [hname] at hsome
    cases hsome

theorem register_of_undeclared (hoffers : service.Offers declared)
    (hunused : r.contains identifier = false)
    (hstart : service.startUnder identifier w.user = (.ok (), user))
    {before after : List (Text × Text)} {name value : Text}
    (hentries : values.entries = before ++ (name, value) :: after)
    (hbefore : ∀ e ∈ before, (declared e.1).isSome = true) (hname : declared name = none) :
    r.Stops w (r.register identifier service ⟨some service.component⟩ values w)
      (.unsupportedProperty identifier name) user := by
  have hfirst := (Service.settings_of_first hentries
    (fun e he => hoffers.declares_iff.2 (hbefore e he)) {}).1 (by rw [hoffers.lookup, hname])
  obtain ⟨w', hrun, huser, hlog⟩ := register_of_unmatched hunused ⟨some service.component⟩ hstart
    (.inr ⟨name, hfirst, rfl⟩)
  rw [hrun]
  exact ⟨rfl, rfl, huser, hlog⟩

/-- Something that fails is not a success. -/
theorem Stops.ne_ok {x : Except Error Unit × Registry υ × World υ} {e : Error}
    (h : r.Stops w x e user) : x.1 ≠ .ok () := by
  rw [h.answer]
  nofun

theorem register_ok_iff (hoffers : service.Offers declared) (r : Registry υ) (identifier : Text)
    (values : Table Text Text) (w : World υ) :
    (r.register identifier service ⟨some service.component⟩ values w).1 = .ok () ↔
      r.contains identifier = false ∧ (service.startUnder identifier w.user).1 = .ok () ∧
      (∀ name ∈ values.keys, (declared name).isSome = true) ∧
      ∀ settings : Settings, settings.Assigned declared values →
        (service.callAdded identifier settings (service.startUnder identifier w.user).2).1 =
          .ok () := by
  cases hused : r.contains identifier with
  | true => exact iff_of_false (register_of_used hused _).ne_ok fun h => nomatch h.1
  | false =>
    rcases hstart : service.startUnder identifier w.user with ⟨e | _, started⟩
    · exact iff_of_false (register_of_unstarted hused _ hstart).ne_ok fun h => nomatch h.2.1
    · obtain ⟨settings, hsettings, hdeclared, hassigned⟩ |
          ⟨before, name, value, after, hentries, hbefore, hname⟩ :=
        matched_or_undeclared hoffers values
      · rcases hcalled : service.callAdded identifier settings started with ⟨answer, args, user⟩
        obtain ⟨w', -, hrun⟩ := register_of_called hused hstart hsettings hcalled
        rw [hrun]
        cases answer with
        | error failure =>
          refine iff_of_false nofun fun h => ?_
          have hnone := h.2.2.2 settings hassigned
          rw [hcalled] at hnone
          cases hnone
        | ok =>
          -- the hooks were called with one assignment of the values, and there is no other
          refine iff_of_true rfl ⟨rfl, rfl, hdeclared, fun settings' hassigned' => ?_⟩
          rw [hassigned'.unique hassigned, hcalled]
      · have hstops := register_of_undeclared hoffers hused hstart hentries hbefore hname
        refine iff_of_false hstops.ne_ok fun h => ?_
        have hsome := h.2.2.1 name (Table.mem_keys_of_entries hentries)
        rw [hname] at hsome
        cases hsome

/-- **The first step that fails decides whether and with what a service is added, and what is
registered is what was asked for.**  A service that is missing or comes through another type is
found out before anything else is looked at. -/
theorem add_decides (hoffers : service.Offers declared) (r : Registry υ) (identifier : Text)
    (values : Table Text Text) (w : World υ) :
    (∀ component, r.add identifier none component values w =
      (.error (.argument .noService), r, w)) ∧
    (∀ component, component.polymorphic = true → service.typeName ≠ component.typeName →
      r.add identifier (some service) component values w =
        (.error (.argument (.boundThroughBase component.typeName service.typeName)), r, w)) ∧
    r.Addition identifier service declared values w
      (r.add identifier (some service) service.component values w) := by
  refine ⟨fun _ => rfl, fun component hpolymorphic hname => ?_, ?_⟩
  · have hbind : Target.bind component (some service.typeName) =
        .error (.argument (.boundThroughBase component.typeName service.typeName)) := by
      unfold Target.bind
      simp [hpolymorphic, hname]
    simp only [add, hbind]
  · rw [add_of_own]
    refine ⟨register_ok_iff hoffers r identifier values w, fun hok => ?_,
      fun hused => register_of_used hused _, fun hunused e user => register_of_unstarted hunused _,
      fun hunused user hstart before name value after =>
        register_of_undeclared hoffers hunused hstart, ?_⟩
    · obtain ⟨hunused, hstarts, hdeclared, -⟩ :=
        (register_ok_iff hoffers r identifier values w).1 hok
      have hstart : service.startUnder identifier w.user =
          (.ok (), (service.startUnder identifier w.user).2) := Prod.ext hstarts rfl
      obtain ⟨settings, hsettings, hassigned⟩ := matched_of_declared hoffers hdeclared
      obtain ⟨hput, hshows⟩ := register_shows hunused hstart hsettings hok
      exact ⟨_, hput, rfl, rfl, rfl, hassigned, hshows⟩
    · intro hunused started hstart settings hassigned i e args user hcalled
      obtain ⟨settings', hsettings, hassigned'⟩ := matched_of_declared hoffers hassigned.declared
      rw [hassigned.unique hassigned'] at hcalled
      obtain ⟨w', huser, hrun⟩ := register_of_called hunused hstart hsettings hcalled
      rw [hrun]
      exact ⟨rfl, rfl, huser⟩

/-- A value that its property rejects is stored all the same, and shown to the hook; a second
service under the same identifier is not started. -/
theorem add_decides_of_invalid_value :
    let υ := List (Option Text)
    let component : Component Configuration.signature υ :=
      { typeName := [65]
        hooks := [(.added, .reading () fun c seen => (.ok (), c.settings.value? [112] :: seen))] }
    let d : Descriptor := { name := [112], validator := some .integer, name_ne := nofun }
    let service : Service υ :=
      { component
        identifier := fun _ => []
        learn := fun _ seen => none :: seen
        configurable := .ofDescriptors (.ok [d]) fun _ => .ok [] }
    let declared : Text → Option Descriptor := fun name => [d].find? fun d => d.name = name
    let values : Table Text Text := (∅ : Table Text Text).insert [112] [120]
    let w : World υ := { user := [] }
    let x := Registry.add {} [115] (some service) component values w
    service.Offers declared ∧ x.1 = .ok () ∧ x.2.2.user = [some [120], none] ∧
      (∃ g : Registration υ, x.2.1.registrations.get? [115] = some g ∧ g.enabled = false ∧
        g.settings.Assigned declared values ∧
        (d.validate (g.settings.value? [112])).valid = false) ∧
      x.2.1.Stops w (x.2.1.add [115] (some service) component values w)
        (.service (.duplicate [115])) [] := by
  intro υ component d service declared values w x
  have hoffers : service.Offers declared := Service.offers_of_descriptors rfl
  obtain ⟨-, -, hadds⟩ := add_decides hoffers {} [115] values w
  obtain ⟨-, -, hagain⟩ := add_decides hoffers x.2.1 [115] values w
  have hok : x.1 = .ok () := rfl
  obtain ⟨g, hput, -, -, hdisabled, hassigned, -⟩ := hadds.registered hok
  have hregistered : x.2.1.registrations.get? [115] = some g := by
    rw [hput, get?_put, if_pos rfl]
  have hstored : g.settings.value? [112] = some [120] := by
    unfold Settings.value?
    rw [hassigned.find?]
    rfl
  refine ⟨hoffers, hok, rfl, ⟨g, hregistered, hdisabled, hassigned, ?_⟩, hagain.used rfl⟩
  rw [hstored]
  decide

end Registry

end ProcessorBench
