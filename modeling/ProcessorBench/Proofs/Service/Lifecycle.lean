import ProcessorBench.Proofs.Service.Dependence

/-!
# The lives of services

A registry starts empty and takes requests, one after the other, each in whatever world there is at
that time.  `Registry.Chronicle` keeps what was fired.

* `Standing.follow` — where firings lead a service; a phase that is not due leads nowhere.
* `Registry.Request.proper` — what one request fires, calls and leaves.
* `Registry.lives` — after any requests every service stands where its firings led it, and from
  that: adding comes first and once, successes in enabling and calls for disabling alternate, and
  nothing is fired after a removal.
-/

set_option autoImplicit false

namespace ProcessorBench

namespace Registry

/-- A phase that was fired on a service, and whether that went well. -/
structure Firing where
  identifier : Text
  phase : Phase
  succeeded : Bool
  deriving DecidableEq, Repr

/-- The service was enabled by this. -/
def Firing.enables (f : Firing) : Bool := f.phase = .enabled && f.succeeded

/-- The service was disabled by this. -/
def Firing.disables (f : Firing) : Bool := f.phase = .disabled

end Registry

/-- Only adding is due where there is no service. -/
theorem Phase.eq_added_of_source? {phase : Phase} (h : phase.source? = some .absent) :
    phase = .added := by
  cases phase <;> first | rfl | cases h

namespace Standing

open Registry

/-- Where a firing leads a service, if the phase is due. -/
def next (s : Standing) (f : Firing) : Option Standing :=
  if f.phase.source? = some s then some (f.phase.target f.succeeded) else none

/-- Where firings lead a service, if each was due. -/
def follow (s : Standing) (firings : List Firing) : Option Standing := firings.foldlM next s

theorem follow_append (s : Standing) (l l' : List Firing) :
    s.follow (l ++ l') = (s.follow l).bind fun t => t.follow l' := by
  unfold follow
  rw [List.foldlM_append]
  rfl

/-- Firings that were due, with the first one taken off. -/
theorem follow_cons {s t : Standing} {f : Firing} {l : List Firing}
    (h : s.follow (f :: l) = some t) :
    f.phase.source? = some s ∧ (f.phase.target f.succeeded).follow l = some t := by
  unfold follow at h
  rw [List.foldlM_cons] at h
  obtain ⟨m, hm, h⟩ := Option.bind_eq_some_iff.1 h
  unfold next at hm
  split at hm
  · rename_i hsource
    cases hm
    exact ⟨hsource, h⟩
  · cases hm

/-- Firings that were due, cut at one of them. -/
theorem follow_split {s t : Standing} {before later : List Firing} {f : Firing}
    (h : s.follow (before ++ f :: later) = some t) :
    ∃ m, s.follow before = some m ∧ f.phase.source? = some m ∧
      (f.phase.target f.succeeded).follow later = some t := by
  rw [follow_append] at h
  obtain ⟨m, hm, h⟩ := Option.bind_eq_some_iff.1 h
  exact ⟨m, hm, follow_cons h⟩

/-- Successes in enabling and calls for disabling alternate. -/
theorem follow_balance {s t : Standing} {l : List Firing} (h : s.follow l = some t) :
    l.countP Firing.enables + (if s = .enabled then 1 else 0) =
      l.countP Firing.disables + if t = .enabled then 1 else 0 := by
  induction l generalizing s with
  | nil =>
    obtain rfl : s = t := Option.some.inj h
    simp
  | cons f l ih =>
    obtain ⟨hsource, hl⟩ := follow_cons h
    have hrest := ih hl
    obtain ⟨identifier, phase, succeeded⟩ := f
    rw [List.countP_cons, List.countP_cons]
    cases phase <;> cases succeeded <;> cases hsource <;>
      simp [Firing.enables, Firing.disables, Phase.target] at hrest ⊢ <;> omega

/-- A service that was there and is no more was removed. -/
theorem removed_of_follow {s : Standing} (hs : s ≠ .absent) {l : List Firing}
    (h : s.follow l = some .absent) : ∃ f ∈ l, f.phase = .removed ∧ f.succeeded = true := by
  induction l generalizing s with
  | nil => exact absurd (Option.some.inj h) hs
  | cons f l ih =>
    obtain ⟨hsource, hl⟩ := follow_cons h
    by_cases habsent : f.phase.target f.succeeded = .absent
    · refine ⟨f, List.mem_cons_self, ?_⟩
      obtain ⟨identifier, phase, succeeded⟩ := f
      cases phase <;> cases succeeded <;> cases hsource <;> simp [Phase.target] at habsent hs ⊢
    · obtain ⟨g, hg, hremoved⟩ := ih habsent hl
      exact ⟨g, List.mem_cons_of_mem f hg, hremoved⟩

end Standing

namespace Registry

variable {υ : Type}

/-! ## What one request fires and leaves -/

/-- What the request fires. -/
def Request.firings (q : Request υ) (r : Registry υ) (w : World υ) : List Firing :=
  ((q.fires? r w.user).map fun phase =>
    ⟨q.identifier, phase, (q.perform r w).1.isOk⟩).toList

theorem standing_put (r : Registry υ) (identifier j : Text) (g : Registration υ) :
    (r.put identifier g).standing j =
      if j = identifier then if g.enabled then .enabled else .disabled else r.standing j := by
  unfold standing
  rw [get?_put]
  by_cases hj : j = identifier <;> simp [hj]

theorem standing_erase (r : Registry υ) (identifier j : Text) :
    (⟨r.registrations.erase identifier⟩ : Registry υ).standing j =
      if j = identifier then .absent else r.standing j := by
  unfold standing
  rw [Table.get?_erase]
  by_cases hj : j = identifier <;> simp [hj]

theorem standing_settle {r : Registry υ} {identifier : Text} {g : Registration υ} {phase : Phase}
    (hsource : phase.source? = some (r.standing identifier))
    (hfresh : phase = .added → g.enabled = false) (succeeded : Bool) (j : Text) :
    (r.settle identifier g succeeded phase).standing j =
      if j = identifier then phase.target succeeded else r.standing j := by
  have hsame : ∀ s, r.standing identifier = s →
      r.standing j = if j = identifier then s else r.standing j := by
    rintro s rfl
    by_cases hj : j = identifier <;> simp [hj]
  cases phase with
  | added =>
    cases succeeded with
    | true =>
      have hdisabled := hfresh rfl
      simp [settle, standing_put, hdisabled, Phase.target]
    | false => exact hsame _ (Option.some.inj hsource).symm
  | enabled =>
    cases succeeded with
    | true => simp [settle, standing_put, Phase.target]
    | false => exact hsame _ (Option.some.inj hsource).symm
  | disabled => simp [settle, standing_put, Phase.target]
  | removed =>
    cases succeeded with
    | true => simp [settle, standing_erase, Phase.target]
    | false => exact hsame _ (Option.some.inj hsource).symm
  | _ => cases hsource

/-- A phase is fired if the service stands as it must. -/
theorem Request.source_of_fires? {q : Request υ} {r : Registry υ} {user : υ} {phase : Phase}
    (h : q.fires? r user = some phase) :
    q.phase? = some phase ∧ phase.source? = some (r.standing q.identifier) := by
  unfold fires? at h
  rw [Option.filter_eq_some_iff] at h
  obtain ⟨hphase, h⟩ := h
  rw [Bool.and_eq_true, decide_eq_true_eq] at h
  exact ⟨hphase, h.1⟩

/-- **One request leads every service where its firings lead.** -/
theorem Request.follow_firings (q : Request υ) (r : Registry υ) (w : World υ) (j : Text) :
    (r.standing j).follow ((q.firings r w).filter fun f => f.identifier = j) =
      some ((q.perform r w).2.1.standing j) := by
  have hcourse := q.course r w
  unfold firings
  generalize q.fires? r w.user = due at hcourse
  generalize q.perform r w = x at hcourse
  cases hcourse with
  | quiet user fails => rfl
  | configures plain found disabled user =>
    rw [standing_put]
    by_cases hj : j = q.identifier
    · subst hj
      simp [standing_of_some found, disabled, Standing.follow]
    · simp [hj, Standing.follow]
  | @fires phase g w' answer due found fresh user agrees hooks =>
    obtain ⟨-, hsource⟩ := source_of_fires? due
    rw [standing_settle hsource fresh]
    by_cases hj : j = q.identifier
    · subst hj
      simp [Standing.follow, Standing.next, hsource]
    · have hj' : ¬q.identifier = j := fun e => hj e.symm
      simp [hj, hj', Standing.follow]

theorem get?_of_absent {r : Registry υ} {identifier : Text}
    (h : r.standing identifier = .absent) : r.registrations.get? identifier = none := by
  cases hg : r.registrations.get? identifier with
  | none => rfl
  | some g =>
    rw [standing_of_some hg] at h
    split at h <;> cases h

theorem hasEnabled_iff {r : Registry υ} {identifier : Text} :
    r.hasEnabled identifier = true ↔ r.standing identifier = .enabled := by
  unfold hasEnabled standing
  cases r.registrations.get? identifier with
  | none => simp
  | some g => cases he : g.enabled <;> simp [he]

/-- What a request does about the phases of a service. -/
structure Request.Proper (q : Request υ) (r : Registry υ) (w : World υ) : Prop where
  /-- A sound request fires the phase that it is about, once, if the service stands as it must,
  and nothing else. -/
  fired : ∀ phase, q.phase? = some phase → q.sound w.user = true → q.firings r w =
    if phase.source? = some (r.standing q.identifier) then
      [⟨q.identifier, phase, (q.perform r w).1.isOk⟩]
    else []
  /-- To fire a phase is to call its hooks on the service, be it registered or to be added. -/
  called : ∀ f ∈ q.firings r w, ∃ g w', w'.user = q.prepare w.user ∧
    (f.phase ≠ .added → r.registrations.get? f.identifier = some g) ∧
    (f.phase = .added → f.succeeded = true →
      (q.perform r w).2.1.registrations.get? f.identifier = some g) ∧
    f.succeeded = (g.fire f.identifier f.phase w').1.isOk ∧
    (q.perform r w).2.2 = (g.fire f.identifier f.phase w').2
  /-- Where no phase is fired no hook changes the user's state. -/
  silent : q.firings r w = [] → (q.perform r w).2.2.user = w.user ∨
    (q.perform r w).2.2.user = q.prepare w.user
  /-- A request that is refused for the identifier or the state fires and changes nothing. -/
  refused : ∀ e, (q.perform r w).1 = .error e → e.kind = .unknownIdentifier ∨
    e.kind = .serviceState → q.firings r w = [] ∧ (q.perform r w).2.1 = r
  /-- After a removal the identifier is free. -/
  removed : q.phase? = some .removed → (q.perform r w).1.isOk = true →
    (q.perform r w).2.1.standing q.identifier = .absent ∧
    ∀ service declared values w',
      ((q.perform r w).2.1.add q.identifier service declared values w').1 =
        (({} : Registry υ).add q.identifier service declared values w').1
  /-- If the hooks do not let a service be removed, it stays, disabled. -/
  kept : q.phase? = some .removed → q.firings r w ≠ [] → (q.perform r w).1.isOk = false →
    (q.perform r w).2.1 = r ∧ r.standing q.identifier = .disabled

theorem Request.firings_of_due {q : Request υ} {r : Registry υ} {w : World υ} {phase : Phase}
    (h : q.fires? r w.user = some phase) :
    q.firings r w = [⟨q.identifier, phase, (q.perform r w).1.isOk⟩] := by
  unfold firings
  rw [h]
  rfl

theorem Request.firings_of_not_due {q : Request υ} {r : Registry υ} {w : World υ}
    (h : q.fires? r w.user = none) : q.firings r w = [] := by
  unfold firings
  rw [h]
  rfl

theorem Request.firings_eq_of_phase {q : Request υ} {r : Registry υ} {w : World υ} {phase : Phase}
    (hphase : q.phase? = some phase) (hsound : q.sound w.user = true) : q.firings r w =
      if phase.source? = some (r.standing q.identifier) then
        [⟨q.identifier, phase, (q.perform r w).1.isOk⟩]
      else [] := by
  unfold firings fires?
  rw [hphase]
  by_cases hsource : phase.source? = some (r.standing q.identifier) <;> simp [hsource, hsound]

/-- **Every request is proper.** -/
theorem Request.proper (q : Request υ) (r : Registry υ) (w : World υ) : q.Proper r w := by
  have hcourse := q.course r w
  generalize hdue : q.fires? r w.user = due at hcourse
  generalize hx : q.perform r w = x at hcourse
  cases hcourse with
  | quiet user fails =>
    have hnone := firings_of_not_due hdue
    refine ⟨fun phase => firings_eq_of_phase, ?_, ?_, ?_, ?_, ?_⟩
    · rw [hnone]
      nofun
    · intro _
      rw [hx]
      exact user
    · intro e _ _
      rw [hx]
      exact ⟨hnone, rfl⟩
    · intro hphase hok
      rw [hx] at hok
      rw [fails (by rw [hphase]; nofun)] at hok
      cases hok
    · intro _ hsome
      exact absurd hnone hsome
  | configures plain found disabled user =>
    have hnone := firings_of_not_due hdue
    refine ⟨fun phase => firings_eq_of_phase, ?_, ?_, ?_, ?_, ?_⟩
    · rw [hnone]
      nofun
    · intro _
      rw [hx]
      exact .inl user
    · intro e he
      rw [hx] at he
      cases he
    · intro hphase
      rw [plain] at hphase
      cases hphase
    · intro _ hsome
      exact absurd hnone hsome
  | @fires phase g w' answer due found fresh user agrees hooks =>
    have hone := firings_of_due hdue
    obtain ⟨hphase, hsource⟩ := source_of_fires? hdue
    rw [hx] at hone
    refine ⟨fun phase => firings_eq_of_phase, ?_, ?_, ?_, ?_, ?_⟩
    · intro f hf
      rw [hone, List.mem_singleton] at hf
      subst hf
      rw [hx]
      refine ⟨g, w', user, found, ?_, agrees, rfl⟩
      rintro rfl hok
      dsimp only at hok ⊢
      rw [hok]
      show (r.registrations.insert q.identifier g).get? q.identifier = some g
      rw [Table.get?_insert, if_pos rfl]
    · intro hnone
      rw [hone] at hnone
      cases hnone
    · intro e he hkind
      rw [hx] at he
      obtain ⟨hunknown, hstate⟩ := hooks e he
      rcases hkind with hkind | hkind
      · exact absurd hkind hunknown
      · exact absurd hkind hstate
    · intro hremoved hok
      obtain rfl : phase = .removed := Option.some.inj (hphase.symm.trans hremoved)
      rw [hx] at hok ⊢
      dsimp only at hok ⊢
      rw [hok]
      have habsent : (r.settle q.identifier g true .removed).standing q.identifier = .absent := by
        rw [standing_settle hsource fresh, if_pos rfl]
        rfl
      have hnone := get?_of_absent habsent
      exact ⟨habsent, fun service declared values w => (add_congr hnone service declared values w).1⟩
    · intro hremoved _ hfailed
      obtain rfl : phase = .removed := Option.some.inj (hphase.symm.trans hremoved)
      rw [hx] at hfailed ⊢
      dsimp only at hfailed ⊢
      rw [hfailed]
      exact ⟨rfl, (Option.some.inj hsource).symm⟩

/-! ## Any requests -/

/-- A registry, with what was fired since it was empty, oldest first. -/
structure Chronicle (υ : Type) where
  registry : Registry υ := {}
  firings : List Firing := []

namespace Chronicle

/-- A request comes, in the world that there is. -/
def step (c : Chronicle υ) (e : Request υ × World υ) : Chronicle υ where
  registry := (e.1.perform c.registry e.2).2.1
  firings := c.firings ++ e.1.firings c.registry e.2

/-- What became of an empty registry by a row of requests. -/
def after (events : List (Request υ × World υ)) : Chronicle υ := events.foldl step {}

/-- What was fired on the services under the identifier. -/
def firingsOf (c : Chronicle υ) (identifier : Text) : List Firing :=
  c.firings.filter fun f => f.identifier = identifier

/-- Every service stands where its firings led it, and each firing was due. -/
def Followed (c : Chronicle υ) : Prop :=
  ∀ identifier, Standing.absent.follow (c.firingsOf identifier) =
    some (c.registry.standing identifier)

theorem Followed.step {c : Chronicle υ} (h : c.Followed) (e : Request υ × World υ) :
    (c.step e).Followed := by
  intro identifier
  unfold firingsOf Chronicle.step
  rw [List.filter_append, Standing.follow_append]
  have hbefore := h identifier
  unfold firingsOf at hbefore
  rw [hbefore]
  exact e.1.follow_firings c.registry e.2 identifier

theorem followed_after (events : List (Request υ × World υ)) : (after events).Followed := by
  unfold after
  have hstart : ({} : Chronicle υ).Followed := fun _ => rfl
  generalize ({} : Chronicle υ) = c at hstart
  induction events generalizing c with
  | nil => exact hstart
  | cons e rest ih => exact ih (c.step e) (hstart.step e)

/-- The lives of the services that a registry had. -/
structure Orderly (c : Chronicle υ) : Prop where
  /-- Every service stands where its firings led it, and each firing was due. -/
  followed : c.Followed
  /-- Adding comes first. -/
  opened : ∀ identifier f later, c.firingsOf identifier = f :: later → f.phase = .added
  /-- A service that was added is not added again before it was removed. -/
  once : ∀ identifier before life f later,
    c.firingsOf identifier = before ++ ⟨identifier, .added, true⟩ :: (life ++ f :: later) →
    f.phase = .added → ∃ g ∈ life, g.phase = .removed ∧ g.succeeded = true
  /-- Since a service was added it was enabled as often as it was disabled, and once more exactly
  if it is enabled. -/
  balanced : ∀ identifier before life,
    c.firingsOf identifier = before ++ ⟨identifier, .added, true⟩ :: life →
    life.countP Firing.enables =
      life.countP Firing.disables + if c.registry.hasEnabled identifier then 1 else 0
  /-- Nothing is fired after a removal, but to add a service anew. -/
  closed : ∀ identifier before f later,
    c.firingsOf identifier = before ++ ⟨identifier, .removed, true⟩ :: f :: later →
    f.phase = .added
  /-- The identifiers ascend. -/
  ascending : c.registry.identifiers.Pairwise fun a b => compare a b = .lt
  /-- The identifiers are those under which there is a service. -/
  registered : ∀ identifier, identifier ∈ c.registry.identifiers ↔
    c.registry.standing identifier ≠ .absent

theorem Followed.orderly {c : Chronicle υ} (h : c.Followed) : c.Orderly where
  followed := h
  opened identifier f later hl := by
    have hf := h identifier
    rw [hl] at hf
    exact Phase.eq_added_of_source? (Standing.follow_cons hf).1
  once identifier before life f later hl hadded := by
    have hf := h identifier
    rw [hl] at hf
    obtain ⟨-, -, -, hlife⟩ := Standing.follow_split hf
    obtain ⟨m, hm, hsource, -⟩ := Standing.follow_split hlife
    rw [hadded] at hsource
    obtain rfl : Standing.absent = m := Option.some.inj hsource
    exact Standing.removed_of_follow (s := .disabled) nofun hm
  balanced identifier before life hl := by
    have hf := h identifier
    rw [hl] at hf
    obtain ⟨-, -, -, hlife⟩ := Standing.follow_split hf
    have hbalance := Standing.follow_balance hlife
    simp only [← hasEnabled_iff] at hbalance
    simpa [Phase.target] using hbalance
  closed identifier before f later hl := by
    have hf := h identifier
    rw [hl] at hf
    obtain ⟨-, -, -, hlater⟩ := Standing.follow_split hf
    exact Phase.eq_added_of_source? (Standing.follow_cons hlater).1
  ascending := c.registry.registrations.keys_ascending
  registered identifier := by
    unfold identifiers standing
    rw [Table.mem_keys]
    cases c.registry.registrations.get? identifier with
    | none => simp
    | some g => cases he : g.enabled <;> simp [he]

end Chronicle

/-- **The lives of services.**  After any requests, each in whatever world, services had orderly
lives, and whatever request comes next is proper. -/
theorem lives (events : List (Request υ × World υ)) :
    (Chronicle.after events).Orderly ∧
      ∀ (q : Request υ) (w : World υ), q.Proper (Chronicle.after events).registry w :=
  ⟨(Chronicle.followed_after events).orderly, fun q w => q.proper _ w⟩

end Registry

end ProcessorBench
