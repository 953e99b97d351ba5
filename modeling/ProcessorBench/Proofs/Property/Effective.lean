import ProcessorBench.Processor.Context
import ProcessorBench.Proofs.Property.Integer
import ProcessorBench.Proofs.Property.Judgement
import ProcessorBench.Proofs.Service.Frozen

/-!
# One effective value

The value of a property is asked for by name and by descriptor, it is judged when it is set, and it
is judged again with the whole configuration, be the component a service or a processor.  Here all
of these go by the same value: the one that was set under the name, by whatever descriptor, or else
the default of the component's own descriptor.

* `Validator.IsStandard.about`, `Descriptor.validate_about` — a verdict is about the property and
  the effective value.
* `Configurable.value?_ofDescriptors`, `Configurable.validate_ofDescriptors` — what a component with
  a list of properties answers.
* `Access.Agrees`, `Configurable.one_effective_value` — so it is in the registry and in a context,
  whatever was done with the properties before.
-/

set_option autoImplicit false

namespace ProcessorBench

/-! ## Verdicts -/

namespace Validator

/-- One of the validators that come with the library. -/
def IsStandard (v : Validator) : Prop := v ∈ [nonEmpty, integer, positiveInteger, boolean]

/-- The verdict of a standard validator is about what it was given. -/
theorem IsStandard.about {v : Validator} (h : v.IsStandard) (subject input : Text) :
    (v subject input).subject = subject ∧ (v subject input).input = input := by
  simp only [IsStandard, List.mem_cons, List.not_mem_nil, or_false] at h
  rcases h with rfl | rfl | rfl | rfl
  · unfold nonEmpty
    split <;> exact ⟨rfl, rfl⟩
  · exact integer_about subject input
  · exact positiveInteger_about subject input
  · unfold boolean
    split <;> exact ⟨rfl, rfl⟩

end Validator

namespace Descriptor

/-- The descriptor has a standard validator or none. -/
def IsStandard (d : Descriptor) : Prop := ∀ v, d.validator = some v → v.IsStandard

variable {d : Descriptor}

theorem judge_about (h : d.IsStandard) (input : Text) :
    (d.judge input).subject = d.name ∧ (d.judge input).input = input := by
  unfold judge
  split
  · exact ⟨rfl, rfl⟩
  · cases hv : d.validator with
    | none => exact ⟨rfl, rfl⟩
    | some v => exact (h v hv).about d.name input

/-- The verdict on a value is about the property and the value, or else the default. -/
theorem validate_about (h : d.IsStandard) (value : Option Text) :
    (d.validate value).subject = d.name ∧
      (d.validate value).input = (value.or d.defaultValue).getD [] := by
  unfold validate
  cases value.or d.defaultValue with
  | some input => exact judge_about h input
  | none => cases d.required <;> exact ⟨rfl, rfl⟩

/-- No value is judged as the default. -/
theorem validate_none {value : Text} (h : d.defaultValue = some value) :
    d.validate none = d.validate (some value) := by
  unfold validate
  rw [h]
  rfl

end Descriptor

/-! ## Components with a list of properties -/

theorem Settings.value?_set (s : Settings) (d : Descriptor) (value : Text) :
    (s.set d value).value? d.name = some value := by
  unfold value? find? set
  rw [Table.get?_insert, if_pos rfl]
  rfl

namespace Configurable

variable {supported : List Descriptor} {custom : Review → Except Error (List Verdict)}

/-- Where names are distinct, a property is found under its name. -/
theorem descriptor?_of_distinct {c : Configurable} (hc : c = ofDescriptors (.ok supported) custom)
    (hdistinct : (supported.map fun d => d.name).Nodup) {d : Descriptor} (hd : d ∈ supported) :
    c.descriptor? d.name = .ok (some d) := by
  subst hc
  show Except.ok (supported.find? fun e => e.name = d.name) = _
  congr 1
  cases hfind : supported.find? fun e => e.name = d.name with
  | none => exact absurd (by simp) (List.find?_eq_none.1 hfind d hd)
  | some e =>
    have hname : e.name = d.name := by simpa using List.find?_some hfind
    rw [List.inj_on_of_nodup_map hdistinct (List.mem_of_find?_eq_some hfind) hd hname]

/-- The value that is asked for by name is the one that the settings have for the property. -/
theorem value?_ofDescriptors (hdistinct : (supported.map fun d => d.name).Nodup)
    {d : Descriptor} (hd : d ∈ supported) (s : Settings) :
    (ofDescriptors (.ok supported) custom).value? s d.name = .ok (s.valueOf d) := by
  unfold value? Settings.valueOf
  rw [descriptor?_of_distinct rfl hdistinct hd]
  cases s.value? d.name <;> rfl

/-- The properties are judged first; only what the component itself adds can fail. -/
theorem validate_ofDescriptors (review : Review) :
    (ofDescriptors (.ok supported) custom).validate review =
      (custom review).map fun added => review.settings.validate supported ++ added := by
  show (custom review).bind _ = _
  cases custom review <;> rfl

end Configurable

/-! ## Ways to a component -/

/-- Where a component is configured: how the value of a property and the verdicts on all of them are
asked for, and how a property is set by its name, in a state of the surroundings. -/
structure Access (σ : Type) where
  value? : σ → Text → Except Error (Option Text)
  verdicts : σ → Except Error (List Verdict)
  set : σ → (name value : Text) → Except Error Verdict × σ

variable {υ : Type}

/-- The way to a service through the registry. -/
def Registry.access (identifier : Text) (w : World υ) : Access (Registry υ) where
  value? r := r.value? identifier
  verdicts r := r.validate identifier
  set r name value :=
    let (answer, r, _) := r.setPropertyByName identifier name value w
    (answer, r)

/-- The way to a processor through its context. -/
def Context.access : Access (Context υ) where
  value? := Context.value?
  verdicts := Context.validate
  set := Context.setPropertyByName

/-- All that can be asked of a component with these properties goes by one value for each of
them. -/
structure Access.Agrees {σ : Type} (a : Access σ) (x : σ) (supported : List Descriptor)
    (s : Settings) : Prop where
  /-- The value that is asked for by name is the one that is asked for by descriptor. -/
  value : ∀ d ∈ supported, a.value? x d.name = .ok (s.valueOf d)
  /-- It is the value that is set under the name, by whatever descriptor. -/
  stored : ∀ d ∈ supported, ∀ e ∈ s.toList, e.descriptor.name = d.name →
    s.valueOf d = some e.value
  /-- It is the default if none is set under the name. -/
  unset : ∀ d ∈ supported, (∀ e ∈ s.toList, e.descriptor.name ≠ d.name) →
    s.valueOf d = d.defaultValue
  /-- The verdict that is listed for a property is the one on the value that is set, and is about
  the property and its value. -/
  listed : ∀ l, a.verdicts x = .ok l → ∀ (i : Nat) d, supported[i]? = some d →
    ∃ verdict,
    l[i]? = some verdict ∧ verdict = d.validate (s.value? d.name) ∧
      verdict.subject = d.name ∧ verdict.input = (s.valueOf d).getD []
  /-- The verdict on a value that is set by name is the one that is listed then, and the value is
  the one that is asked for then. -/
  set : ∀ (i : Nat) d value verdict x', supported[i]? = some d →
    a.set x d.name value = (.ok verdict, x') →
    a.value? x' d.name = .ok (some value) ∧ ∀ l, a.verdicts x' = .ok l → l[i]? = some verdict

/-- The state answers for the component as it is configured by the settings. -/
structure Access.Reads {σ : Type} (a : Access σ) (x : σ) (c : Configurable) (s : Settings) : Prop
    where
  value : ∀ name, a.value? x name = c.value? s name
  verdicts : ∃ review : Review, review.settings = s ∧ a.verdicts x = c.validate review

section

variable {supported : List Descriptor} {custom : Review → Except Error (List Verdict)}

theorem Configurable.listed_of_validate {review : Review} {l : List Verdict}
    (h : (ofDescriptors (.ok supported) custom).validate review = .ok l) {i : Nat} {d : Descriptor}
    (hd : supported[i]? = some d) :
    l[i]? = some (d.validate (review.settings.value? d.name)) := by
  rw [validate_ofDescriptors] at h
  cases hcustom : custom review with
  | error e =>
    rw [hcustom] at h
    cases h
  | ok added =>
    rw [hcustom] at h
    cases h
    have hi := Settings.getElem?_validate (s := review.settings) hd
    rw [List.getElem?_append_left (List.getElem?_eq_some_iff.1 hi).1, hi]

variable {σ : Type} {a : Access σ} {x : σ} {s : Settings}

theorem Access.Reads.listed (h : a.Reads x (.ofDescriptors (.ok supported) custom) s)
    {l : List Verdict} (hl : a.verdicts x = .ok l) {i : Nat} {d : Descriptor}
    (hd : supported[i]? = some d) : l[i]? = some (d.validate (s.value? d.name)) := by
  obtain ⟨review, rfl, hreview⟩ := h.verdicts
  exact Configurable.listed_of_validate (hreview.symm.trans hl) hd

/-- **A way to a component agrees with itself if it reads off the settings, before a property is set
and after.** -/
theorem Access.Reads.agrees (hdistinct : (supported.map fun d => d.name).Nodup)
    (hstandard : ∀ d ∈ supported, d.IsStandard)
    (h : a.Reads x (.ofDescriptors (.ok supported) custom) s)
    (hset : ∀ d ∈ supported, ∀ value verdict x', a.set x d.name value = (.ok verdict, x') →
      verdict = d.validate (some value) ∧
        a.Reads x' (.ofDescriptors (.ok supported) custom) (s.set d value)) :
    a.Agrees x supported s where
  value d hd := by
    rw [h.value, Configurable.value?_ofDescriptors hdistinct hd]
  stored d _ e he hname := by
    unfold Settings.valueOf
    rw [← hname, Settings.value?_of_mem he]
    rfl
  unset d _ hnone := by
    unfold Settings.valueOf
    rw [Settings.value?_eq_none hnone]
    rfl
  listed l hl i d hd := by
    obtain ⟨hsubject, hinput⟩ :=
      Descriptor.validate_about (hstandard d (List.mem_of_getElem? hd)) (s.value? d.name)
    exact ⟨_, h.listed hl hd, rfl, hsubject, hinput⟩
  set i d value verdict x' hd hx' := by
    have hmem := List.mem_of_getElem? hd
    obtain ⟨rfl, hreads⟩ := hset d hmem value verdict x' hx'
    have hvalue := s.value?_set d value
    refine ⟨?_, fun l hl => ?_⟩
    · rw [hreads.value, Configurable.value?_ofDescriptors hdistinct hmem]
      unfold Settings.valueOf
      rw [hvalue]
      rfl
    · rw [hreads.listed hl hd, hvalue]

end

/-! ## The registry and the context -/

namespace Registry

variable {r : Registry υ} {identifier : Text} {g : Registration υ} {w : World υ}

theorem access_verdicts (w : World υ) (hg : r.registrations.get? identifier = some g) :
    (access identifier w).verdicts r =
      g.service.configurable.validate
        { settings := g.settings, serviceEnabled := r.hasEnabled } := by
  show r.validate identifier = _
  unfold validate
  rw [lookup_of_some hg]

theorem access_reads (w : World υ) (hg : r.registrations.get? identifier = some g) :
    (access identifier w).Reads r g.service.configurable g.settings where
  value name := by
    show r.value? identifier name = _
    unfold value?
    rw [lookup_of_some hg]
  verdicts := ⟨_, rfl, access_verdicts w hg⟩

/-- A property of a disabled service can be set by its name. -/
theorem access_set_of_disabled (w : World υ) {d : Descriptor} {name : Text}
    (hg : r.registrations.get? identifier = some g) (hdisabled : g.enabled = false)
    (hname : g.service.configurable.descriptor? name = .ok (some d)) (value : Text) :
    (access identifier w).set r name value = (.ok (d.validate (some value)),
      r.put identifier { g with settings := g.settings.set d value }) := by
  have hgranted : ∀ w : World υ, r.demandDisabled identifier .setProperty w = (.ok g, w) := by
    intro w
    unfold demandDisabled demand
    rw [hg]
    simp only [hdisabled, Bool.false_eq_true, if_false]
  show ((r.setPropertyByName identifier name value w).1,
    (r.setPropertyByName identifier name value w).2.1) = _
  unfold setPropertyByName setProperty
  simp only [hgranted, hname]

theorem access_set_of_enabled (w : World υ) (hg : r.registrations.get? identifier = some g)
    (henabled : g.enabled = true) (name value : Text) :
    ((access identifier w).set r name value).1 =
      .error (.service (.frozen .setProperty identifier)) := by
  obtain ⟨w', hrefused⟩ := demandDisabled_of_enabled hg henabled .setProperty w
  show (r.setPropertyByName identifier name value w).1 = _
  unfold setPropertyByName
  rw [hrefused]

variable {supported : List Descriptor} {custom : Review → Except Error (List Verdict)}

theorem access_agrees (hdistinct : (supported.map fun d => d.name).Nodup)
    (hstandard : ∀ d ∈ supported, d.IsStandard) (w : World υ)
    (hg : r.registrations.get? identifier = some g)
    (hconfigurable : g.service.configurable = .ofDescriptors (.ok supported) custom) :
    (access identifier w).Agrees r supported g.settings := by
  have hreads := access_reads w hg
  rw [hconfigurable] at hreads
  refine hreads.agrees hdistinct hstandard fun d hd value verdict r' hset => ?_
  cases henabled : g.enabled with
  | true =>
    -- nothing is set while the service is enabled
    have hrefused := access_set_of_enabled w hg henabled d.name value
    rw [hset] at hrefused
    cases hrefused
  | false =>
    have hname := Configurable.descriptor?_of_distinct hconfigurable hdistinct hd
    rw [access_set_of_disabled w hg henabled hname value] at hset
    cases hset
    have hput : (r.put identifier { g with settings := g.settings.set d value }).registrations.get?
        identifier = some { g with settings := g.settings.set d value } := by
      rw [get?_put, if_pos rfl]
    have hreads' := access_reads w hput
    rw [hconfigurable] at hreads'
    exact ⟨rfl, hreads'⟩

end Registry

theorem Context.access_reads (c : Context υ) :
    Context.access.Reads c c.processor.configurable c.settings where
  value _ := rfl
  verdicts := ⟨{ settings := c.settings, serviceEnabled := c.services.hasEnabled }, rfl, rfl⟩

theorem Context.access_set {c : Context υ} {d : Descriptor} {name : Text}
    (hname : c.processor.configurable.descriptor? name = .ok (some d)) (value : Text) :
    Context.access.set c name value =
      (.ok (d.validate (some value)), { c with settings := c.settings.set d value }) := by
  show c.setPropertyByName name value = _
  unfold setPropertyByName Configurable.setByName
  rw [hname]

theorem Context.access_agrees {supported : List Descriptor}
    {custom : Review → Except Error (List Verdict)}
    (hdistinct : (supported.map fun d => d.name).Nodup)
    (hstandard : ∀ d ∈ supported, d.IsStandard) {c : Context υ}
    (hconfigurable : c.processor.configurable = .ofDescriptors (.ok supported) custom) :
    Context.access.Agrees c supported c.settings := by
  have hreads := c.access_reads
  rw [hconfigurable] at hreads
  refine hreads.agrees hdistinct hstandard fun d hd value verdict c' hset => ?_
  have hname := Configurable.descriptor?_of_distinct hconfigurable hdistinct hd
  rw [access_set hname value] at hset
  cases hset
  have hreads' := Context.access_reads { c with settings := c.settings.set d value }
  rw [hconfigurable] at hreads'
  exact ⟨rfl, hreads'⟩

/-! ## Services and processors -/

namespace Configurable

variable {supported : List Descriptor}

/-- Only what the component itself adds can keep the verdicts from being listed. -/
theorem validate_ok_iff {custom : Review → Except Error (List Verdict)} {review : Review} :
    (∃ l, (ofDescriptors (.ok supported) custom).validate review = .ok l) ↔
      ∃ added, custom review = .ok added := by
  rw [validate_ofDescriptors]
  cases custom review with
  | error e => exact ⟨nofun, nofun⟩
  | ok added => exact ⟨fun _ => ⟨added, rfl⟩, fun _ => ⟨_, rfl⟩⟩

/-- **Whatever was done with the properties of a service or a processor, all that can be asked about
one of them goes by one value.**  The names of the properties are distinct and their validators are
standard ones; the settings may hold anything, also values that were set by other descriptors of the
same names. -/
theorem one_effective_value (hdistinct : (supported.map fun d => d.name).Nodup)
    (hstandard : ∀ d ∈ supported, d.IsStandard) (custom : Review → Except Error (List Verdict)) :
    (∀ (r : Registry υ) (identifier : Text) (g : Registration υ) (w : World υ),
      r.registrations.get? identifier = some g →
      g.service.configurable = ofDescriptors (.ok supported) custom →
      let a := Registry.access identifier w
      a.Agrees r supported g.settings ∧
        (∀ d ∈ supported, ∀ value, (a.set r d.name value).1 =
          if g.enabled then .error (.service (.frozen .setProperty identifier))
          else .ok (d.validate (some value))) ∧
        ((∃ l, a.verdicts r = .ok l) ↔ ∃ added,
          custom { settings := g.settings, serviceEnabled := r.hasEnabled } = .ok added)) ∧
    (∀ c : Context υ, c.processor.configurable = ofDescriptors (.ok supported) custom →
      let a := Context.access
      a.Agrees c supported c.settings ∧
        (∀ d ∈ supported, ∀ value, (a.set c d.name value).1 = .ok (d.validate (some value))) ∧
        ((∃ l, a.verdicts c = .ok l) ↔ ∃ added,
          custom { settings := c.settings, serviceEnabled := c.services.hasEnabled } = .ok added)) ∧
    ∀ d ∈ supported, ∀ value, d.defaultValue = some value →
      d.validate none = d.validate (some value) := by
  refine ⟨fun r identifier g w hg hconfigurable => ?_, fun c hconfigurable => ?_,
    fun d _ value => Descriptor.validate_none⟩
  · refine ⟨Registry.access_agrees hdistinct hstandard w hg hconfigurable, fun d hd value => ?_, ?_⟩
    · cases henabled : g.enabled with
      | true => exact Registry.access_set_of_enabled w hg henabled d.name value
      | false =>
        have hname := descriptor?_of_distinct hconfigurable hdistinct hd
        rw [Registry.access_set_of_disabled w hg henabled hname value]
        rfl
    · rw [Registry.access_verdicts w hg, hconfigurable]
      exact validate_ok_iff
  · refine ⟨Context.access_agrees hdistinct hstandard hconfigurable, fun d hd value => ?_, ?_⟩
    · have hname := descriptor?_of_distinct hconfigurable hdistinct hd
      rw [Context.access_set hname value]
    · show (∃ l, c.processor.configurable.validate _ = .ok l) ↔ _
      rw [hconfigurable]
      exact validate_ok_iff

/-- A value that was set by a descriptor without a validator is judged by the processor's own
descriptor of the same name. -/
theorem one_effective_value_of_other_descriptor :
    let d : Descriptor :=
      { name := [112], defaultValue := some [53], validator := some .integer, name_ne := nofun }
    let other : Descriptor := { name := [112], name_ne := nofun }
    let c : Context Unit :=
      { identifier := []
        processor := { configurable := ofDescriptors (.ok [d]) fun _ => .ok [] }
        settings := Settings.set {} other [120] }
    ([d].map fun d => d.name).Nodup ∧ (∀ d' ∈ [d], d'.IsStandard) ∧
      c.value? [112] = .ok (some [120]) ∧
      ∃ l verdict, c.validate = .ok l ∧ l[0]? = some verdict ∧ verdict.subject = [112] ∧
        verdict.input = [120] ∧ verdict.valid = false := by
  intro d other c
  have hdistinct : ([d].map fun d => d.name).Nodup := List.nodup_singleton _
  have hstandard : ∀ d' ∈ [d], d'.IsStandard := by
    simp [d, Descriptor.IsStandard, Validator.IsStandard]
  refine ⟨hdistinct, hstandard, ?_⟩
  obtain ⟨hagrees, -, hlists⟩ :=
    (one_effective_value hdistinct hstandard fun _ => .ok []).2.1 c rfl
  obtain ⟨l, hl⟩ := hlists.2 ⟨[], rfl⟩
  obtain ⟨verdict, hverdict, rfl, hsubject, hinput⟩ := hagrees.listed l hl 0 d rfl
  exact ⟨hagrees.value d (by simp), l, _, hl, hverdict, hsubject, hinput, by decide⟩

end Configurable

end ProcessorBench
