import ProcessorBench.Proofs.Lifecycle.Target
import ProcessorBench.Service.Registry

/-!
# Requests to the registry

The changes that the registry can be asked for, as values, and what each of them can do
(`Request.course`): it fires no phase and leaves every service standing as it stood, or it fires
one phase, and how that ends decides what is left (`Registry.settle`).  A phase is fired only where
the service stands as the phase requires (`Phase.source?`).
-/

set_option autoImplicit false

namespace ProcessorBench

/-- How a service stands under an identifier. -/
inductive Standing where
  | absent
  | disabled
  | enabled
  deriving DecidableEq, Repr

/-- The standing in which the phase of a service is fired. -/
def Phase.source? : Phase → Option Standing
  | .added => some .absent
  | .enabled => some .disabled
  | .disabled => some .enabled
  | .removed => some .disabled
  | _ => none

/-- The standing after the phase of a service was fired, with or without success. -/
def Phase.target (succeeded : Bool) : Phase → Standing
  | .added => if succeeded then .disabled else .absent
  | .enabled => if succeeded then .enabled else .disabled
  | .removed => if succeeded then .absent else .disabled
  | _ => .disabled

namespace Registry

variable {υ : Type}

def standing (r : Registry υ) (identifier : Text) : Standing :=
  match r.registrations.get? identifier with
  | none => .absent
  | some g => if g.enabled then .enabled else .disabled

/-- What is left after the phase was fired, with or without success. -/
def settle (r : Registry υ) (identifier : Text) (g : Registration υ) (succeeded : Bool) :
    Phase → Registry υ
  | .added => if succeeded then r.put identifier g else r
  | .enabled => if succeeded then r.put identifier { g with enabled := true } else r
  | .disabled => r.put identifier { g with enabled := false }
  | .removed => if succeeded then ⟨r.registrations.erase identifier⟩ else r
  | _ => r

/-- A change that the registry is asked for. -/
inductive Request (υ : Type) where
  | add (identifier : Text) (service : Option (Service υ))
      (declared : Component Configuration.signature υ) (values : Table Text Text)
  | enable (identifier : Text)
  | disable (identifier : Text)
  | remove (identifier : Text)
  | setProperty (identifier : Text) (d : Descriptor) (value : Text)
  | setPropertyByName (identifier name value : Text)
  | removeProperty (identifier name : Text)
  | annotate (identifier : Text) (annotationData : Option Text)

namespace Request

def identifier : Request υ → Text
  | add identifier .. | enable identifier | disable identifier | remove identifier
  | setProperty identifier .. | setPropertyByName identifier .. | removeProperty identifier _
  | annotate identifier _ => identifier

/-- Carries the request out.  Of the answer only success or failure counts here. -/
def perform (q : Request υ) (r : Registry υ) (w : World υ) :
    Except Error Unit × Registry υ × World υ :=
  match q with
  | add identifier service declared values => r.add identifier service declared values w
  | enable identifier => r.enable identifier w
  | disable identifier => r.disable identifier w
  | remove identifier => r.remove identifier w
  | setProperty identifier d value => plain (r.setProperty identifier d value w)
  | setPropertyByName identifier name value => plain (r.setPropertyByName identifier name value w)
  | removeProperty identifier name => plain (r.removeProperty identifier name w)
  | annotate identifier annotationData => r.annotate identifier annotationData w
where
  plain {α : Type} (x : Except Error α × Registry υ × World υ) :
      Except Error Unit × Registry υ × World υ := (x.1.map fun _ => (), x.2)

/-- The phase that the request is about. -/
def phase? : Request υ → Option Phase
  | add .. => some .added
  | enable _ => some .enabled
  | disable _ => some .disabled
  | remove _ => some .removed
  | _ => none

/-- Nothing but its identifier can be wrong with the request: a service that is to be added is
there, comes through its own type, starts, and has all the properties. -/
def sound (q : Request υ) (user : υ) : Bool :=
  match q with
  | add _ none _ _ => false
  | add identifier (some service) declared values =>
    (Target.bind declared (some service.typeName)).isOk &&
      (service.startUnder identifier user).1.isOk &&
      match service.settings values.entries {} with
      | .ok (.ok _) => true
      | _ => false
  | _ => true

/-- The phase that the request fires: the one it is about, if the service stands as it must. -/
def fires? (q : Request υ) (r : Registry υ) (user : υ) : Option Phase :=
  q.phase?.filter fun phase =>
    phase.source? = some (r.standing q.identifier) && q.sound user

/-- What the request does to the user's state before it fires a phase. -/
def prepare (q : Request υ) (user : υ) : υ :=
  match q with
  | add identifier (some service) _ _ => (service.startUnder identifier user).2
  | _ => user

/-- What a request can do, with the phase that it fires. -/
inductive Course (q : Request υ) (r : Registry υ) (w : World υ) :
    Option Phase → Except Error Unit × Registry υ × World υ → Prop where
  /-- Nothing is changed. -/
  | quiet {answer : Except Error Unit} {w' : World υ}
      (user : w'.user = w.user ∨ w'.user = q.prepare w.user)
      (fails : q.phase? ≠ none → answer.isOk = false) : Course q r w none (answer, r, w')
  /-- A disabled service gets other settings. -/
  | configures {g : Registration υ} {settings : Settings} {w' : World υ} (plain : q.phase? = none)
      (found : r.registrations.get? q.identifier = some g) (disabled : g.enabled = false)
      (user : w'.user = w.user) :
      Course q r w none (.ok (), r.put q.identifier { g with settings }, w')
  /-- The hooks of the phase are called, and how that ends decides. -/
  | fires {phase : Phase} {g : Registration υ} {w' : World υ} {answer : Except Error Unit}
      (due : q.fires? r w.user = some phase)
      (found : phase ≠ .added → r.registrations.get? q.identifier = some g)
      (fresh : phase = .added → g.enabled = false)
      (user : w'.user = q.prepare w.user)
      (agrees : answer.isOk = (g.fire q.identifier phase w').1.isOk)
      (hooks : ∀ e, answer = .error e → e.kind ≠ .unknownIdentifier ∧ e.kind ≠ .serviceState) :
      Course q r w (some phase)
        (answer, r.settle q.identifier g answer.isOk phase, (g.fire q.identifier phase w').2)

end Request

/-! ## What each request does -/

theorem fire_error_kind {g : Registration υ} {identifier : Text} {phase : Phase} {w : World υ}
    {e : Error} (h : (g.fire identifier phase w).1 = .error e) :
    e.kind ≠ .unknownIdentifier ∧ e.kind ≠ .serviceState := by
  rcases Target.invoke_error h with rfl | ⟨cause, rfl⟩ <;> exact ⟨nofun, nofun⟩

variable {r : Registry υ} {identifier : Text} {w : World υ}

theorem standing_of_none (h : r.registrations.get? identifier = none) :
    r.standing identifier = .absent := by
  unfold standing
  rw [h]

theorem standing_of_some {g : Registration υ} (h : r.registrations.get? identifier = some g) :
    r.standing identifier = if g.enabled then .enabled else .disabled := by
  unfold standing
  rw [h]

/-- A request that finds its phase not due does nothing. -/
theorem Request.Course.of_refusal {q : Request υ} {phase : Phase} (hphase : q.phase? = some phase)
    (hsource : phase.source? ≠ some (r.standing q.identifier)) {e : Error} {w' : World υ}
    (huser : w'.user = w.user) : q.Course r w (q.fires? r w.user) (.error e, r, w') := by
  have hdue : q.fires? r w.user = none := by
    unfold Request.fires?
    rw [hphase]
    simp [hsource]
  rw [hdue]
  exact .quiet (.inl huser) fun _ => rfl

/-- A request that finds its phase due fires it. -/
theorem Request.Course.of_fire {q : Request υ} {phase : Phase} (hphase : q.phase? = some phase)
    (hsource : phase.source? = some (r.standing q.identifier)) (hsound : q.sound w.user = true)
    {g : Registration υ} (hfound : phase ≠ .added → r.registrations.get? q.identifier = some g)
    (hfresh : phase = .added → g.enabled = false) {w' w'' : World υ}
    (huser : w'.user = q.prepare w.user) {result answer : Except Error Unit}
    (hfire : g.fire q.identifier phase w' = (result, w'')) (hagrees : answer.isOk = result.isOk)
    (hhooks : ∀ e, answer = .error e → e.kind ≠ .unknownIdentifier ∧ e.kind ≠ .serviceState) :
    q.Course r w (q.fires? r w.user)
      (answer, r.settle q.identifier g answer.isOk phase, w'') := by
  have hdue : q.fires? r w.user = some phase := by
    unfold Request.fires?
    rw [hphase]
    simp [hsource, hsound]
  obtain rfl : (g.fire q.identifier phase w').1 = result := congrArg Prod.fst hfire
  obtain rfl : (g.fire q.identifier phase w').2 = w'' := congrArg Prod.snd hfire
  rw [hdue]
  exact .fires hdue hfound hfresh huser hagrees hhooks

/-- A request that passes on how the hooks ended. -/
theorem Request.Course.of_transition {q : Request υ} (phase : Phase)
    (hphase : q.phase? = some phase) (hadded : phase ≠ .added)
    (hsource : phase.source? = some (r.standing q.identifier)) (hsound : q.sound w.user = true)
    {g : Registration υ} (hfound : r.registrations.get? q.identifier = some g) {w' w'' : World υ}
    (huser : w'.user = q.prepare w.user) {answer : Except Error Unit}
    (hfire : g.fire q.identifier phase w' = (answer, w'')) :
    q.Course r w (q.fires? r w.user)
      (answer, r.settle q.identifier g answer.isOk phase, w'') := by
  refine .of_fire hphase hsource hsound (fun _ => hfound) (fun h => absurd h hadded) huser hfire
    rfl fun e he => ?_
  have herror : (g.fire q.identifier phase w').1 = .error e := by rw [hfire, he]
  exact fire_error_kind herror

theorem enable_course (r : Registry υ) (identifier : Text) (w : World υ) :
    (Request.enable identifier).Course r w ((Request.enable identifier).fires? r w.user)
      (r.enable identifier w) := by
  unfold enable demand
  cases hg : r.registrations.get? identifier with
  | none =>
    refine .of_refusal rfl ?_ rfl
    simp [Request.identifier, standing_of_none hg, Phase.source?]
  | some g =>
    have hstanding := standing_of_some hg
    cases he : g.enabled with
    | true =>
      simp only [he, if_true] at hstanding ⊢
      refine .of_refusal rfl ?_ rfl
      simp [Request.identifier, hstanding, Phase.source?]
    | false =>
      simp only [he, Bool.false_eq_true, if_false] at hstanding ⊢
      generalize hw' : w.note logger .debug _ = w'
      have huser : w'.user = w.user := by rw [← hw']; rfl
      have hsource : Phase.enabled.source? = some (r.standing identifier) := by
        rw [hstanding]; rfl
      rcases hfire : g.fire identifier .enabled w' with ⟨answer, w''⟩
      cases answer <;> exact .of_transition .enabled rfl nofun hsource rfl hg huser hfire

theorem disable_course (r : Registry υ) (identifier : Text) (w : World υ) :
    (Request.disable identifier).Course r w ((Request.disable identifier).fires? r w.user)
      (r.disable identifier w) := by
  unfold disable demand
  cases hg : r.registrations.get? identifier with
  | none =>
    refine .of_refusal rfl ?_ rfl
    simp [Request.identifier, standing_of_none hg, Phase.source?]
  | some g =>
    have hstanding := standing_of_some hg
    cases he : g.enabled with
    | true =>
      simp only [he, if_true, Bool.not_true, Bool.false_eq_true, if_false] at hstanding ⊢
      generalize hw' : w.note logger .debug _ = w'
      have huser : w'.user = w.user := by rw [← hw']; rfl
      have hsource : Phase.disabled.source? = some (r.standing identifier) := by
        rw [hstanding]; rfl
      rcases hfire : g.fire identifier .disabled w' with ⟨answer, w''⟩
      exact .of_transition .disabled rfl nofun hsource rfl hg huser hfire
    | false =>
      simp only [he, Bool.false_eq_true, if_false, Bool.not_false, if_true] at hstanding ⊢
      refine .of_refusal rfl ?_ rfl
      simp [Request.identifier, hstanding, Phase.source?]

theorem remove_course (r : Registry υ) (identifier : Text) (w : World υ) :
    (Request.remove identifier).Course r w ((Request.remove identifier).fires? r w.user)
      (r.remove identifier w) := by
  unfold remove demand
  cases hg : r.registrations.get? identifier with
  | none =>
    refine .of_refusal rfl ?_ rfl
    simp [Request.identifier, standing_of_none hg, Phase.source?]
  | some g =>
    have hstanding := standing_of_some hg
    cases he : g.enabled with
    | true =>
      simp only [he, if_true] at hstanding ⊢
      refine .of_refusal rfl ?_ rfl
      simp [Request.identifier, hstanding, Phase.source?]
    | false =>
      simp only [he, Bool.false_eq_true, if_false] at hstanding ⊢
      generalize hw' : w.note logger .debug _ = w'
      have huser : w'.user = w.user := by rw [← hw']; rfl
      have hsource : Phase.removed.source? = some (r.standing identifier) := by
        rw [hstanding]; rfl
      rcases hfire : g.fire identifier .removed w' with ⟨answer, w''⟩
      cases answer <;> exact .of_transition .removed rfl nofun hsource rfl hg huser hfire

/-- A change of the configuration goes on with the registration of a disabled service, or fails. -/
theorem demandDisabled_cases (r : Registry υ) (identifier : Text) (change : Error.Change)
    (w : World υ) :
    (∃ e w', r.demandDisabled identifier change w = (.error e, w') ∧ w'.user = w.user) ∨
      ∃ g, r.demandDisabled identifier change w = (.ok g, w) ∧
        r.registrations.get? identifier = some g ∧ g.enabled = false := by
  unfold demandDisabled demand
  cases hg : r.registrations.get? identifier with
  | none => exact .inl ⟨_, _, rfl, rfl⟩
  | some g =>
    cases he : g.enabled with
    | true =>
      simp only [he, if_true]
      exact .inl ⟨_, _, rfl, rfl⟩
    | false =>
      simp only [he, Bool.false_eq_true, if_false]
      exact .inr ⟨g, rfl, rfl, he⟩

/-- A request that only changes the configuration fires nothing. -/
theorem Request.Course.of_demandDisabled {q : Request υ} (change : Error.Change)
    (hphase : q.phase? = none) {x : Except Error Unit × Registry υ × World υ}
    (hrefused : ∀ e w', r.demandDisabled q.identifier change w = (.error e, w') →
      x = (.error e, r, w'))
    (hgranted : ∀ g, r.demandDisabled q.identifier change w = (.ok g, w) →
      (∃ answer, x = (answer, r, w)) ∨
        ∃ settings w', w'.user = w.user ∧
          x = (.ok (), r.put q.identifier { g with settings }, w')) :
    q.Course r w (q.fires? r w.user) x := by
  have hdue : q.fires? r w.user = none := by
    unfold Request.fires?
    rw [hphase]
    rfl
  rw [hdue]
  rcases demandDisabled_cases r q.identifier change w with ⟨e, w', he, huser⟩ | ⟨g, hg, hfound, hd⟩
  · rw [hrefused e w' he]
    exact .quiet (.inl huser) fun _ => rfl
  · rcases hgranted g hg with ⟨answer, rfl⟩ | ⟨settings, w', huser, rfl⟩
    · exact .quiet (.inl rfl) fun h => absurd hphase h
    · exact .configures hphase hfound hd huser

theorem setProperty_of_granted {g : Registration υ} (d : Descriptor) (value : Text)
    (hg : r.demandDisabled identifier .setProperty w = (.ok g, w)) :
    ∃ verdict w', w'.user = w.user ∧ r.setProperty identifier d value w =
      (.ok verdict, r.put identifier { g with settings := g.settings.set d value }, w') := by
  unfold setProperty
  rw [hg]
  refine ⟨_, _, ?_, rfl⟩
  split <;> rfl

theorem setProperty_course (r : Registry υ) (identifier : Text) (d : Descriptor) (value : Text)
    (w : World υ) : (Request.setProperty identifier d value).Course r w
      ((Request.setProperty identifier d value).fires? r w.user)
      ((Request.setProperty identifier d value).perform r w) := by
  refine .of_demandDisabled .setProperty rfl ?_ ?_
  · intro e w' he
    have he' : r.demandDisabled identifier .setProperty w = (.error e, w') := he
    simp [Request.perform, Request.perform.plain, setProperty, he', Except.map]
  · intro g hg
    have hg' : r.demandDisabled identifier .setProperty w = (.ok g, w) := hg
    obtain ⟨verdict, w', huser, hset⟩ := setProperty_of_granted d value hg'
    refine .inr ⟨g.settings.set d value, w', huser, ?_⟩
    simp [Request.perform, Request.perform.plain, hset, Except.map, Request.identifier]

theorem setPropertyByName_course (r : Registry υ) (identifier name value : Text) (w : World υ) :
    (Request.setPropertyByName identifier name value).Course r w
      ((Request.setPropertyByName identifier name value).fires? r w.user)
      ((Request.setPropertyByName identifier name value).perform r w) := by
  refine .of_demandDisabled .setProperty rfl ?_ ?_
  · intro e w' he
    have he' : r.demandDisabled identifier .setProperty w = (.error e, w') := he
    simp [Request.perform, Request.perform.plain, setPropertyByName, he', Except.map]
  · intro g hg
    have hg' : r.demandDisabled identifier .setProperty w = (.ok g, w) := hg
    simp only [Request.perform, Request.perform.plain, setPropertyByName, hg', Request.identifier]
    split
    · exact .inl ⟨_, rfl⟩
    · exact .inl ⟨_, rfl⟩
    · rename_i d _
      obtain ⟨verdict, w', huser, hset⟩ := setProperty_of_granted d value hg'
      rw [hset]
      exact .inr ⟨_, w', huser, rfl⟩

theorem removeProperty_course (r : Registry υ) (identifier name : Text) (w : World υ) :
    (Request.removeProperty identifier name).Course r w
      ((Request.removeProperty identifier name).fires? r w.user)
      ((Request.removeProperty identifier name).perform r w) := by
  refine .of_demandDisabled .removeProperty rfl ?_ ?_
  · intro e w' he
    have he' : r.demandDisabled identifier .removeProperty w = (.error e, w') := he
    simp [Request.perform, Request.perform.plain, removeProperty, he', Except.map]
  · intro g hg
    have hg' : r.demandDisabled identifier .removeProperty w = (.ok g, w) := hg
    refine .inr ⟨(g.settings.remove name).2, w, rfl, ?_⟩
    simp [Request.perform, Request.perform.plain, removeProperty, hg', Except.map,
      Request.identifier]

theorem annotate_course (r : Registry υ) (identifier : Text) (annotationData : Option Text)
    (w : World υ) : (Request.annotate identifier annotationData).Course r w
      ((Request.annotate identifier annotationData).fires? r w.user)
      (r.annotate identifier annotationData w) := by
  refine .of_demandDisabled .setAnnotationData rfl ?_ ?_
  · intro e w' he
    have he' : r.demandDisabled identifier .setAnnotationData w = (.error e, w') := he
    simp [annotate, he']
  · intro g hg
    have hg' : r.demandDisabled identifier .setAnnotationData w = (.ok g, w) := hg
    refine .inr ⟨g.settings.annotate annotationData, w, rfl, ?_⟩
    simp [annotate, hg', Request.identifier]

/-! ## Adding -/

/-- An unsound request does nothing but what it takes to find that out. -/
theorem Request.Course.of_unsound {q : Request υ} (hsound : q.sound w.user = false)
    {e : Error} {w' : World υ} (huser : w'.user = w.user ∨ w'.user = q.prepare w.user) :
    q.Course r w (q.fires? r w.user) (.error e, r, w') := by
  have hdue : q.fires? r w.user = none := by
    unfold Request.fires?
    rw [hsound]
    simp
  rw [hdue]
  exact .quiet huser fun _ => rfl

theorem register_course (r : Registry υ) (identifier : Text) (service : Service υ)
    (declared : Component Configuration.signature υ) (values : Table Text Text) (w : World υ)
    {target : Target Configuration.signature υ}
    (hbind : Target.bind declared (some service.typeName) = .ok target) :
    (Request.add identifier (some service) declared values).Course r w
      ((Request.add identifier (some service) declared values).fires? r w.user)
      (r.register identifier service target values w) := by
  unfold register
  by_cases hcontains : r.contains identifier = true
  · rw [if_pos hcontains]
    refine .of_refusal rfl ?_ rfl
    obtain ⟨g, hg⟩ := Option.isSome_iff_exists.1 hcontains
    have hstanding := standing_of_some hg
    cases he : g.enabled <;> simp [Request.identifier, hstanding, he, Phase.source?]
  · rw [if_neg hcontains]
    have hstanding : r.standing identifier = .absent :=
      standing_of_none (Option.not_isSome_iff_eq_none.1 hcontains)
    have hsource : Phase.added.source? = some (r.standing identifier) := by
      rw [hstanding]; rfl
    generalize hw' : w.note logger .debug _ = w'
    have huser : w'.user = w.user := by rw [← hw']; rfl
    dsimp only
    rw [huser]
    rcases hstart : service.startUnder identifier w.user with ⟨result, user⟩
    have hprepare : user = (service.startUnder identifier w.user).2 := by rw [hstart]
    cases result with
    | error e =>
      have hsound :
          (Request.add identifier (some service) declared values).sound w.user = false := by
        simp [Request.sound, hstart, Except.isOk, Except.toBool]
      dsimp only
      split <;> exact .of_unsound hsound (.inr hprepare)
    | ok _ =>
      rcases hsettings : service.settings values.entries {} with e | name | settings
      · refine .of_unsound ?_ (.inr hprepare)
        simp [Request.sound, hsettings]
      · refine .of_unsound ?_ (.inr hprepare)
        simp [Request.sound, hsettings]
      · have hsound :
            (Request.add identifier (some service) declared values).sound w.user = true := by
          simp [Request.sound, hbind, hstart, hsettings, Except.isOk, Except.toBool]
        dsimp only
        split
        · rename_i hfire
          refine .of_fire rfl hsource hsound nofun (fun _ => rfl) hprepare hfire rfl ?_
          rintro _ ⟨⟩
          exact ⟨nofun, nofun⟩
        · rename_i hfire
          refine .of_fire rfl hsource hsound nofun (fun _ => rfl) hprepare hfire rfl ?_
          rintro _ ⟨⟩
          exact fire_error_kind (congrArg Prod.fst hfire)
        · rename_i hfire
          exact .of_fire rfl hsource hsound nofun (fun _ => rfl) hprepare hfire rfl nofun

/-- **What a request can do.** -/
theorem Request.course (q : Request υ) (r : Registry υ) (w : World υ) :
    q.Course r w (q.fires? r w.user) (q.perform r w) := by
  cases q with
  | add identifier service declared values =>
    show Course _ r w _ (r.add identifier service declared values w)
    unfold Registry.add
    cases service with
    | none => exact .of_unsound rfl (.inl rfl)
    | some service =>
      cases hbind : Target.bind declared (some service.typeName) with
      | error e =>
        simp only [hbind]
        refine .of_unsound ?_ (.inl rfl)
        simp [sound, hbind, Except.isOk, Except.toBool]
      | ok target =>
        simp only [hbind]
        exact register_course r identifier service declared values w hbind
  | enable identifier => exact enable_course r identifier w
  | disable identifier => exact disable_course r identifier w
  | remove identifier => exact remove_course r identifier w
  | setProperty identifier d value => exact setProperty_course r identifier d value w
  | setPropertyByName identifier name value =>
    exact setPropertyByName_course r identifier name value w
  | removeProperty identifier name => exact removeProperty_course r identifier name w
  | annotate identifier annotationData => exact annotate_course r identifier annotationData w

end Registry

end ProcessorBench
