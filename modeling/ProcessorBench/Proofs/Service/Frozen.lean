import ProcessorBench.Proofs.Service.Locality

/-!
# The configuration of an enabled service is frozen

From the request that enabled a service to the next one to disable it, whatever else is asked for,
its registration stays as it is: only a request to disable it finds its phase due.

* `Request.get?_perform_of_enabled` — one request leaves the registration of an enabled service.
* `Request.refused_of_enabled` — what would alter the configuration is refused for the state.
* `Registry.frozen_while_enabled` — what can be seen of the configuration, by questions and by
  hooks, in every state between.
-/

set_option autoImplicit false

namespace ProcessorBench

variable {υ : Type}

/-- The hooks of the phase were shown the configuration, to read and not to change, and what came
of that is how the request ended and what it did to the world. -/
def Registration.Shows (g : Registration υ) (phase : Phase) (configuration : Configuration)
    (user : υ) (x : Except Error Unit × Registry υ × World υ) : Prop :=
  ∃ log,
    let called := g.target.invoke phase
      [{ kind := (), value := configuration, readOnly := true }] user log
    x.1 = called.outcome ∧ x.2.2 = { user := called.state, log := called.log }

namespace Registry

variable {r r' : Registry υ} {identifier : Text} {g : Registration υ}

/-! ## The hooks at both ends -/

/-- What enabled a service showed its hooks the settings that are registered. -/
theorem enable_of_ok {w : World υ} (h : (r.enable identifier w).1 = .ok ()) :
    ∃ g, r.registrations.get? identifier = some g ∧
      g.Shows .enabled ⟨identifier, g.settings⟩ w.user (r.enable identifier w) ∧
      (r.enable identifier w).2.1.registrations.get? identifier =
        some { g with enabled := true } := by
  unfold enable demand at h ⊢
  cases hg : r.registrations.get? identifier with
  | none => simp [hg] at h
  | some g =>
    cases he : g.enabled with
    | true => simp [hg, he] at h
    | false =>
      simp only [hg, he, Bool.false_eq_true, if_false] at h ⊢
      rcases hfire : g.fire identifier .enabled _ with ⟨e | _, w'⟩
      · simp [hfire] at h
      · refine ⟨g, rfl, ⟨_, (congrArg Prod.fst hfire).symm, (congrArg Prod.snd hfire).symm⟩, ?_⟩
        rw [get?_put, if_pos rfl]

/-- What disables a service shows its hooks the settings that are registered. -/
theorem disable_shows (hg : r.registrations.get? identifier = some { g with enabled := true })
    (w : World υ) : g.Shows .disabled ⟨identifier, g.settings⟩ w.user (r.disable identifier w) := by
  unfold disable demand
  rw [hg]
  exact ⟨_, rfl, rfl⟩

/-! ## Between the ends -/

/-- The phase of a request that finds it due on an enabled service is that of disabling it. -/
theorem Request.eq_disable_of_fires? {q : Request υ} {user : υ} {phase : Phase}
    (hdue : q.fires? r user = some phase) (hg : r.registrations.get? q.identifier = some g)
    (henabled : g.enabled = true) : q = .disable q.identifier := by
  obtain ⟨hphase, hsource⟩ := source_of_fires? hdue
  rw [standing_of_some hg, if_pos henabled] at hsource
  obtain rfl : phase = .disabled := by cases phase <;> first | rfl | cases hsource
  cases q with
  | disable identifier => rfl
  | _ => cases hphase

theorem Request.get?_perform_of_enabled {q : Request υ} (hq : q ≠ .disable identifier)
    (hg : r.registrations.get? identifier = some g) (henabled : g.enabled = true) (w : World υ) :
    (q.perform r w).2.1.registrations.get? identifier = some g := by
  by_cases hj : identifier = q.identifier
  · subst hj
    have hcourse := q.course r w
    generalize q.fires? r w.user = due at hcourse
    generalize q.perform r w = x at hcourse
    cases hcourse with
    | quiet user fails => exact hg
    | configures plain found disabled user =>
      obtain rfl := Option.some.inj (hg.symm.trans found)
      rw [henabled] at disabled
      cases disabled
    | fires due found fresh user agrees hooks =>
      -- the only phase that is due on an enabled service is that of disabling it
      exact absurd (eq_disable_of_fires? due hg henabled) hq
  · rw [q.get?_perform_of_ne r w hj, hg]

theorem Chronicle.get?_foldl_of_enabled {c : Chronicle υ}
    (hg : c.registry.registrations.get? identifier = some g) (henabled : g.enabled = true)
    {events : List (Request υ × World υ)} (h : ∀ e ∈ events, e.1 ≠ .disable identifier) :
    (events.foldl step c).registry.registrations.get? identifier = some g := by
  induction events generalizing c with
  | nil => exact hg
  | cons e rest ih =>
    rw [List.forall_mem_cons] at h
    exact ih (Request.get?_perform_of_enabled h.1 hg henabled e.2) h.2

/-! ## What is refused -/

/-- The request is to change the configuration of a service, or to remove it. -/
def Request.alters : Request υ → Bool
  | remove _ | setProperty .. | setPropertyByName .. | removeProperty .. | annotate .. => true
  | add .. | enable _ | disable _ => false

/-- The request is refused for the state of the service: it fires nothing, and it changes neither
the registry nor the user's state. -/
structure Request.Refused (q : Request υ) (r : Registry υ) (w : World υ) : Prop where
  error : ∃ e, (q.perform r w).1 = .error e ∧ e.kind = .serviceState
  registry : (q.perform r w).2.1 = r
  user : (q.perform r w).2.2.user = w.user
  firings : q.firings r w = []

theorem demandDisabled_of_enabled (hg : r.registrations.get? identifier = some g)
    (henabled : g.enabled = true) (change : Error.Change) (w : World υ) :
    ∃ w', r.demandDisabled identifier change w =
      (.error (.service (.frozen change identifier)), w') := by
  unfold demandDisabled demand
  rw [hg]
  simp only [henabled, if_true]
  exact ⟨_, rfl⟩

theorem Request.error_of_enabled {q : Request υ} (hq : q.alters = true)
    (hg : r.registrations.get? q.identifier = some g) (henabled : g.enabled = true) (w : World υ) :
    ∃ e, (q.perform r w).1 = .error e ∧ e.kind = .serviceState := by
  have hfrozen change := demandDisabled_of_enabled hg henabled change w
  cases q with
  | add | enable | disable => cases hq
  | remove identifier =>
    refine ⟨.service (.stillEnabled identifier), ?_, rfl⟩
    change (r.remove identifier w).1 = _
    unfold Registry.remove demand
    rw [show r.registrations.get? identifier = some g from hg]
    simp [henabled]
  | setProperty identifier d value =>
    obtain ⟨w', h⟩ : ∃ w', r.demandDisabled identifier .setProperty w = _ := hfrozen .setProperty
    refine ⟨.service (.frozen .setProperty identifier), ?_, rfl⟩
    change (r.setProperty identifier d value w).1.map _ = _
    unfold Registry.setProperty
    rw [h]
    rfl
  | setPropertyByName identifier name value =>
    obtain ⟨w', h⟩ : ∃ w', r.demandDisabled identifier .setProperty w = _ := hfrozen .setProperty
    refine ⟨.service (.frozen .setProperty identifier), ?_, rfl⟩
    change (r.setPropertyByName identifier name value w).1.map _ = _
    unfold Registry.setPropertyByName
    rw [h]
    rfl
  | removeProperty identifier name =>
    obtain ⟨w', h⟩ : ∃ w', r.demandDisabled identifier .removeProperty w = _ :=
      hfrozen .removeProperty
    refine ⟨.service (.frozen .removeProperty identifier), ?_, rfl⟩
    change (r.removeProperty identifier name w).1.map _ = _
    unfold Registry.removeProperty
    rw [h]
    rfl
  | annotate identifier annotationData =>
    obtain ⟨w', h⟩ : ∃ w', r.demandDisabled identifier .setAnnotationData w = _ :=
      hfrozen .setAnnotationData
    refine ⟨.service (.frozen .setAnnotationData identifier), ?_, rfl⟩
    change (r.annotate identifier annotationData w).1 = _
    unfold Registry.annotate
    rw [h]
    rfl

theorem Request.refused_of_enabled {q : Request υ} (hq : q.alters = true)
    (hg : r.registrations.get? q.identifier = some g) (henabled : g.enabled = true) (w : World υ) :
    q.Refused r w := by
  obtain ⟨e, he, hkind⟩ := error_of_enabled hq hg henabled w
  obtain ⟨hsilent, hregistry⟩ := (q.proper r w).refused e he (.inr hkind)
  have hprepare : q.prepare w.user = w.user := by
    cases q with
    | add => cases hq
    | _ => rfl
  refine ⟨⟨e, he, hkind⟩, hregistry, ?_, hsilent⟩
  rcases (q.proper r w).silent hsilent with huser | huser
  · exact huser
  · rw [huser, hprepare]

/-! ## Any requests -/

/-- What is registered under the identifier shows in all questions about its configuration. -/
structure SameConfiguration (identifier : Text) (r r' : Registry υ) : Prop where
  settings : r.settings identifier = r'.settings identifier
  annotationData : r.annotationData identifier = r'.annotationData identifier
  value? : ∀ name, r.value? identifier name = r'.value? identifier name

theorem lookup_of_some (hg : r.registrations.get? identifier = some g) :
    r.lookup identifier = .ok g := by
  unfold lookup
  rw [hg]

theorem sameConfiguration_of_some {enabled : Bool}
    (hg : r.registrations.get? identifier = some { g with enabled })
    (hg' : r'.registrations.get? identifier = some g) : SameConfiguration identifier r r' := by
  have hr := lookup_of_some hg
  have hr' := lookup_of_some hg'
  refine ⟨?_, ?_, fun name => ?_⟩
  · unfold Registry.settings
    rw [hr, hr']
    rfl
  · unfold Registry.annotationData
    rw [hr, hr']
    rfl
  · unfold Registry.value?
    rw [hr, hr']

/-- **The configuration of an enabled service is frozen.**  A service was enabled, and then came
any requests, each in whatever world, but none to disable it.  All that can be asked about its
configuration is answered as it was when it was enabled; the hooks were shown just that, and those
of the request that disables it will be; and what would alter it is refused. -/
theorem frozen_while_enabled {before between : List (Request υ × World υ)} {identifier : Text}
    {w : World υ} (henable : ((Chronicle.after before).registry.enable identifier w).1 = .ok ())
    (hbetween : ∀ e ∈ between, e.1 ≠ .disable identifier) :
    let r := (Chronicle.after before).registry
    let r' := (Chronicle.after (before ++ (.enable identifier, w) :: between)).registry
    SameConfiguration identifier r' r ∧
      (∃ g, r.registrations.get? identifier = some g ∧
        g.Shows .enabled ⟨identifier, g.settings⟩ w.user (r.enable identifier w) ∧
        ∀ w', g.Shows .disabled ⟨identifier, g.settings⟩ w'.user (r'.disable identifier w')) ∧
      ∀ (q : Request υ) (w' : World υ), q.alters = true → q.identifier = identifier →
        q.Refused r' w' := by
  intro r r'
  obtain ⟨g, hg, hshown, henabled⟩ := enable_of_ok henable
  have hrun : (Chronicle.after (before ++ (.enable identifier, w) :: between)) =
      between.foldl Chronicle.step ((Chronicle.after before).step (.enable identifier, w)) := by
    unfold Chronicle.after
    rw [List.foldl_append, List.foldl_cons]
  have hg' : r'.registrations.get? identifier = some { g with enabled := true } := by
    show (Chronicle.after _).registry.registrations.get? identifier = _
    rw [hrun]
    exact Chronicle.get?_foldl_of_enabled henabled rfl hbetween
  refine ⟨sameConfiguration_of_some hg' hg, ⟨g, hg, hshown, disable_shows hg'⟩, ?_⟩
  rintro q w' halters rfl
  exact Request.refused_of_enabled halters hg' rfl w'

/-- A hook that notes down the value that it is shown, and an attempt to change that value. -/
theorem frozen_while_enabled_of_attempt :
    let υ := List (Option Text)
    let component : Component Configuration.signature υ :=
      { typeName := [65]
        hooks := [(.enabled, .reading () fun c seen => (.ok (), c.settings.value? [112] :: seen))] }
    let service : Service υ :=
      { component
        identifier := fun _ => []
        learn := fun _ seen => seen
        configurable := .ofReview fun _ => .ok [] }
    let d : Descriptor := { name := [112], name_ne := nofun }
    let w : World υ := { user := [] }
    let before : List (Request υ × World υ) :=
      [(.add [115] (some service) component ∅, w), (.setProperty [115] d [49], w)]
    let attempt : Request υ := .setProperty [115] d [50]
    let r := (Chronicle.after before).registry
    let r' := (Chronicle.after (before ++ [(.enable [115], w), (attempt, w)])).registry
    (r.enable [115] w).1 = .ok () ∧ (r.enable [115] w).2.2.user = [some [49]] ∧
      r'.value? [115] [112] = .ok (some [49]) ∧ attempt.Refused r' w := by
  intro υ component service d w before attempt r r'
  have henable : (r.enable [115] w).1 = .ok () := rfl
  have hbetween : ∀ e ∈ [(attempt, w)], e.1 ≠ .disable [115] := by
    intro e he
    rw [List.mem_singleton.1 he]
    nofun
  obtain ⟨hsame, -, hrefused⟩ := frozen_while_enabled henable hbetween
  refine ⟨henable, rfl, ?_, hrefused attempt w rfl rfl⟩
  exact (hsame.value? [112]).trans rfl

end Registry

end ProcessorBench
