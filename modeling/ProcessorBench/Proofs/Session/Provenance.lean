import ProcessorBench.Proofs.Session.Distinct

/-!
# What events tell

A session records most events when something happens, and routings when it commits, since until
then a flow file can be routed again, given back or dropped.  What a commit publishes therefore
agrees with what it did only if the events that wait agree with the holdings.

* `Session.Recorded` — this agreement; each change keeps it (`Session.Recorded.tends`), and so does
  each call (`Session.recounts`).
* `Session.Reconciled` — what there is to say of the events of one commit.
* `Workspace.published_provenance` — they reconcile with what the commit did, for any session of a
  workspace and whatever happened before.
-/

set_option autoImplicit false

namespace ProcessorBench

open Program (Call recent)

namespace Provenance

/-- Events of this kind tell that a flow file came to be. -/
def Kind.isOrigin : Kind → Bool
  | .create | .clone => true
  | _ => false

/-- The numbers that the events with a property are about. -/
def subjects (events : List Event) (p : Event → Bool) : List UInt64 :=
  (events.filter p).map (·.flowFile)

/-- If `g` is not like the version `f` from which it stems, then events tell so. -/
structure Explains (events : List Event) (f g : FlowFile) : Prop where
  content : g.content ≠ f.content →
    ∃ e ∈ events, e.kind = .contentModified ∧ e.flowFile = f.id
  attributes : g.attributes ≠ f.attributes →
    ∃ e ∈ events, e.kind = .attributesModified ∧ e.flowFile = f.id

theorem subjects_append (events events' : List Event) (p : Event → Bool) :
    subjects (events ++ events') p = subjects events p ++ subjects events' p := by
  unfold subjects
  rw [List.filter_append, List.map_append]

theorem subjects_eq_nil {events : List Event} {p : Event → Bool}
    (h : ∀ e ∈ events, p e = false) : subjects events p = [] := by
  unfold subjects
  rw [List.filter_eq_nil_iff.2, List.map_nil]
  intro e he
  rw [h e he]
  exact Bool.false_ne_true

theorem mem_subjects {events : List Event} {p : Event → Bool} {id : UInt64} :
    id ∈ subjects events p ↔ ∃ e ∈ events, p e = true ∧ e.flowFile = id := by
  unfold subjects
  simp [and_assoc]

theorem Explains.refl (events : List Event) (f : FlowFile) : Explains events f f :=
  ⟨fun h => absurd rfl h, fun h => absurd rfl h⟩

theorem Explains.mono {events events' : List Event} {f g : FlowFile} (h : Explains events f g)
    (hsub : ∀ e ∈ events, e ∈ events') : Explains events' f g where
  content hne := by
    obtain ⟨e, he, hkind, hid⟩ := h.content hne
    exact ⟨e, hsub e he, hkind, hid⟩
  attributes hne := by
    obtain ⟨e, he, hkind, hid⟩ := h.attributes hne
    exact ⟨e, hsub e he, hkind, hid⟩

/-- The next version is explained if the events that are added tell what is different in it. -/
theorem Explains.step {events new : List Event} {f g g' : FlowFile} (h : Explains events f g)
    (hcontent : g'.content = g.content ∨
      ∃ e ∈ new, e.kind = .contentModified ∧ e.flowFile = f.id)
    (hattributes : g'.attributes = g.attributes ∨
      ∃ e ∈ new, e.kind = .attributesModified ∧ e.flowFile = f.id) :
    Explains (events ++ new) f g' where
  content hne := by
    rcases hcontent with heq | ⟨e, he, htells⟩
    · obtain ⟨e, he, htells⟩ := h.content (heq ▸ hne)
      exact ⟨e, List.mem_append_left _ he, htells⟩
    · exact ⟨e, List.mem_append_right _ he, htells⟩
  attributes hne := by
    rcases hattributes with heq | ⟨e, he, htells⟩
    · obtain ⟨e, he, htells⟩ := h.attributes (heq ▸ hne)
      exact ⟨e, List.mem_append_left _ he, htells⟩
    · exact ⟨e, List.mem_append_right _ he, htells⟩

end Provenance

open Provenance (Explains subjects)

namespace Session

/-- The events that wait tell what became of the flow files that are held: `made` are the numbers of
those that the session made, and `start` the versions in which it took or made them. -/
structure Recorded (s : Session) (made : List UInt64) (start : List FlowFile) : Prop where
  keyed : s.Keyed
  origins : subjects s.events (·.kind.isOrigin) = made
  routes : ∀ e ∈ s.events, e.kind ≠ .route
  drops : ∀ id, (subjects s.events (·.kind = .drop)).count id =
    if (s.holdings.get? id).any (·.fate = .drop) then 1 else 0
  changes : ∀ id h, s.holdings.get? id = some h →
    ∃ f ∈ start, f.id = id ∧ Explains s.events f h.current

variable {s s' : Session} {made : List UInt64} {start : List FlowFile}

theorem Recorded.of_idle (hholdings : s.holdings = ∅) (hevents : s.events = []) :
    s.Recorded [] [] := by
  refine ⟨.of_empty hholdings, ?_, ?_, fun id => ?_, fun id h hg => ?_⟩
  · rw [hevents]
    rfl
  · rw [hevents]
    nofun
  · rw [hevents, hholdings]
    rfl
  · rw [hholdings] at hg
    cases hg

theorem Recorded.of_same (hr : s.Recorded made start) (hholdings : s'.holdings = s.holdings)
    (hevents : s'.events = s.events) : s'.Recorded made start where
  keyed := ⟨hholdings ▸ hr.keyed.current, hholdings ▸ hr.keyed.polled⟩
  origins := hevents ▸ hr.origins
  routes := hevents ▸ hr.routes
  drops := hholdings ▸ hevents ▸ hr.drops
  changes := hholdings ▸ hevents ▸ hr.changes

/-- A holding that is not given up changes, and the events that are added tell so. -/
theorem Recorded.change (hr : s.Recorded made start) (new : List Provenance.Event)
    {h h' : Holding} (hg : s.holdings.get? h.current.id = some h) (hkept : h.fate ≠ .drop)
    (hkeyed : s'.Keyed)
    (hholdings : ∀ id, s'.holdings.get? id =
      if id = h.current.id then some h' else s.holdings.get? id)
    (hevents : s'.events = s.events ++ new)
    (horigins : ∀ e ∈ new, e.kind.isOrigin = false) (hroutes : ∀ e ∈ new, e.kind ≠ .route)
    (hdrops : subjects new (·.kind = .drop) = if h'.fate = .drop then [h.current.id] else [])
    (hcontent : h'.current.content = h.current.content ∨
      ∃ e ∈ new, e.kind = .contentModified ∧ e.flowFile = h.current.id)
    (hattributes : h'.current.attributes = h.current.attributes ∨
      ∃ e ∈ new, e.kind = .attributesModified ∧ e.flowFile = h.current.id) :
    s'.Recorded made start where
  keyed := hkeyed
  origins := by
    rw [hevents, Provenance.subjects_append, hr.origins, Provenance.subjects_eq_nil horigins,
      List.append_nil]
  routes e he := by
    rw [hevents] at he
    rcases List.mem_append.1 he with he | he
    · exact hr.routes e he
    · exact hroutes e he
  drops id := by
    rw [hevents, Provenance.subjects_append, List.count_append, hr.drops, hdrops, hholdings]
    by_cases hid : id = h.current.id
    · subst hid
      by_cases hd : h'.fate = .drop <;> simp [hg, hkept, hd]
    · have hid' : ¬h.current.id = id := fun heq => hid heq.symm
      by_cases hd : h'.fate = .drop <;> simp [hid, hid', hd]
  changes id g hgid := by
    rw [hholdings] at hgid
    by_cases hid : id = h.current.id
    · rw [if_pos hid] at hgid
      obtain rfl := Option.some.inj hgid
      obtain ⟨f, hf, hfid, hexplains⟩ := hr.changes _ h hg
      refine ⟨f, hf, hfid.trans hid.symm, ?_⟩
      rw [← hfid] at hcontent hattributes
      rw [hevents]
      exact hexplains.step hcontent hattributes
    · rw [if_neg hid] at hgid
      obtain ⟨f, hf, hfid, hexplains⟩ := hr.changes id g hgid
      refine ⟨f, hf, hfid, hexplains.mono fun e he => ?_⟩
      rw [hevents]
      exact List.mem_append_left _ he

/-- A flow file comes in that was taken or made.  One that is held already stays as it is. -/
theorem Recorded.enter (hr : s.Recorded made start) (new : List Provenance.Event) {f : FlowFile}
    {h' : Holding} (hkeyed : s'.Keyed)
    (hholdings : ∀ id, s'.holdings.get? id = if id = f.id then some h' else s.holdings.get? id)
    (hnew : s.holdings.get? f.id = none → h'.current = f ∧ h'.fate = .undecided)
    (hold : ∀ h, s.holdings.get? f.id = some h → h'.current = h.current ∧ h'.fate = h.fate)
    (hevents : s'.events = s.events ++ new)
    (hkinds : ∀ e ∈ new, e.kind ≠ .route ∧ e.kind ≠ .drop) :
    s'.Recorded (made ++ subjects new (·.kind.isOrigin)) (start ++ [f]) where
  keyed := hkeyed
  origins := by rw [hevents, Provenance.subjects_append, hr.origins]
  routes e he := by
    rw [hevents] at he
    rcases List.mem_append.1 he with he | he
    · exact hr.routes e he
    · exact (hkinds e he).1
  drops id := by
    have hnone : subjects new (·.kind = .drop) = [] :=
      Provenance.subjects_eq_nil fun e he => decide_eq_false (hkinds e he).2
    rw [hevents, Provenance.subjects_append, List.count_append, hr.drops, hnone, hholdings]
    by_cases hid : id = f.id
    · subst hid
      cases hg : s.holdings.get? f.id with
      | none => simp [(hnew hg).2]
      | some h => simp [(hold h hg).2]
    · simp [hid]
  changes id g hgid := by
    have hsub : ∀ e ∈ s.events, e ∈ s'.events := fun e he => by
      rw [hevents]
      exact List.mem_append_left _ he
    rw [hholdings] at hgid
    by_cases hid : id = f.id
    · rw [if_pos hid] at hgid
      obtain rfl := Option.some.inj hgid
      subst hid
      cases hg : s.holdings.get? f.id with
      | none =>
        refine ⟨f, List.mem_append_right _ (List.mem_singleton_self f), rfl, ?_⟩
        rw [(hnew hg).1]
        exact .refl _ f
      | some h =>
        obtain ⟨f', hf', hid, hexplains⟩ := hr.changes _ h hg
        refine ⟨f', List.mem_append_left _ hf', hid, ?_⟩
        rw [(hold h hg).1]
        exact hexplains.mono hsub
    · rw [if_neg hid] at hgid
      obtain ⟨f', hf', hfid, hexplains⟩ := hr.changes id g hgid
      exact ⟨f', List.mem_append_left _ hf', hfid, hexplains.mono hsub⟩

/-- **A change that takes nothing from the queue is told by the events that it adds.** -/
theorem Recorded.tends {t t' : Scope} (hr : t.session.Recorded made start) (ht : t.Tends t')
    (hqueue : t'.pool.queue = t.pool.queue) : t'.session.Recorded made start := by
  have hkeyed := ht.keyed hr.keyed
  cases ht with
  | @take f rest waits =>
    have hlength := congrArg (fun q => q.flowFiles.length) hqueue
    simp [Scope.take, waits] at hlength
  | @content f h bytes held =>
    obtain ⟨hg, hkept, -⟩ := hr.keyed.open_of_held held
    refine hr.change [{ kind := .contentModified, flowFile := h.current.id }] hg hkept hkeyed
      (get?_revise _ h _) rfl (by simp [Provenance.Kind.isOrigin]) (by simp) ?_
      (.inr ⟨_, List.mem_singleton_self _, rfl, rfl⟩) (.inl rfl)
    rw [if_neg hkept]
    rfl
  | @attributes f h attributes details held =>
    obtain ⟨hg, hkept, -⟩ := hr.keyed.open_of_held held
    refine hr.change [{ kind := .attributesModified, flowFile := h.current.id, details }] hg hkept
      hkeyed (get?_revise _ h _) rfl (by simp [Provenance.Kind.isOrigin]) (by simp) ?_
      (.inl rfl) (.inr ⟨_, List.mem_singleton_self _, rfl, rfl⟩)
    rw [if_neg hkept]
    rfl
  | @decide f h fate held allowed =>
    obtain ⟨hg, hkept, -⟩ := hr.keyed.open_of_held held
    refine hr.change [] hg hkept hkeyed (get?_assign _ h fate) (List.append_nil _).symm (by simp)
      (by simp) ?_ (.inl rfl) (.inl rfl)
    cases fate with
    | drop => cases allowed
    | _ => rfl
  | @drop f h held =>
    obtain ⟨hg, hkept, -⟩ := hr.keyed.open_of_held held
    have hid : f.id = h.current.id := (hr.keyed.current _ h (held_eq_ok.1 held).1).symm
    refine hr.change [{ kind := .drop, flowFile := f.id }] hg hkept hkeyed
      (get?_assign _ h .drop) rfl (by simp [Provenance.Kind.isOrigin]) (by simp) ?_
      (.inl rfl) (.inl rfl)
    rw [hid]
    rfl
  | count name delta immediate =>
    unfold Scope.adjustCounter
    split <;> exact hr.of_same rfl rfl

theorem Recorded.holdPolled (hr : s.Recorded made start) (f : FlowFile) :
    (s.holdPolled f).Recorded made (start ++ [f]) := by
  have hevents : (s.holdPolled f).events = s.events ++ [] := by
    unfold Session.holdPolled
    split <;> exact (List.append_nil _).symm
  have hentered := hr.enter [] (hr.keyed.holdPolled f) (get?_holdPolled s f)
    (fun hg => by rw [hg]; exact ⟨rfl, rfl⟩) (fun h hg => by rw [hg]; exact ⟨rfl, rfl⟩)
    hevents (by simp)
  rwa [show made ++ subjects [] (·.kind.isOrigin) = made from List.append_nil _] at hentered

theorem Recorded.foldl_holdPolled (hr : s.Recorded made start) (fs : List FlowFile) :
    (fs.foldl Session.holdPolled s).Recorded made (start ++ fs) := by
  induction fs generalizing s start with
  | nil => rwa [List.append_nil]
  | cons f rest ih =>
    have hrest := ih (hr.holdPolled f)
    rwa [List.append_assoc, List.singleton_append] at hrest

/-- A flow file that was made comes in, with the event that tells so. -/
theorem Recorded.hold (hr : s.Recorded made start) (f : FlowFile) {kind : Provenance.Kind}
    (hkind : kind = .create ∨ kind = .clone) (details : Text) :
    ((s.hold f).record kind f.id details).Recorded (made ++ [f.id]) (start ++ [f]) := by
  have hkeyed : ((s.hold f).record kind f.id details).Keyed :=
    ⟨(hr.keyed.hold f).current, (hr.keyed.hold f).polled⟩
  have hentered := hr.enter [{ kind, flowFile := f.id, details }] hkeyed (get?_hold s f)
    (fun hg => by rw [hg]; exact ⟨rfl, rfl⟩) (fun h hg => by rw [hg]; exact ⟨rfl, rfl⟩) rfl
    (by rcases hkind with rfl | rfl <;> simp)
  have hsubjects : subjects [{ kind, flowFile := f.id, details }] (·.kind.isOrigin) = [f.id] := by
    rcases hkind with rfl | rfl <;> rfl
  rwa [hsubjects] at hentered

/-- The events that wait tell what the calls of the unit of work did. -/
structure Recounts (s : Session) (calls : List Call) : Prop where
  recorded : s.Recorded ((calls.flatMap Call.made).map (·.id)) (calls.flatMap Call.obtained)
  drops : subjects s.events (·.kind = .drop) = calls.flatMap Call.dropped

theorem Recounts.run {s : Scope} {calls : List Call} (h : s.session.Recounts calls)
    {op : Operation} (hop : op.settles = false) :
    (op.run s).2.session.Recounts (calls ++ [(op, (op.run s).1)]) := by
  refine ⟨?_, ?_⟩
  · rw [List.flatMap_append, List.flatMap_append, List.flatMap_singleton, List.flatMap_singleton,
      List.map_append]
    obtain ⟨fs, htakes⟩ | ⟨f, kind, details, hmakes⟩ | hrests := op.course s
    · rw [htakes.obtained, htakes.made, htakes.session, List.map_nil, List.append_nil]
      exact h.recorded.foldl_holdPolled fs
    · rw [hmakes.obtained, hmakes.made, hmakes.session]
      exact h.recorded.hold f hmakes.origin details
    · rw [hrests.obtained, hrests.made, List.map_nil, List.append_nil, List.append_nil]
      refine Operation.run_induction (Q := fun t => t.session.Recorded _ _) hop hrests.polls
        hrests.fails (fun t t' ht hqueue hr => hr.tends ht hqueue) (fun hr => ?_) h.recorded
      exact hr.of_same rfl rfl
  · rw [List.flatMap_append, List.flatMap_singleton, ← h.drops]
    exact Operation.run_dropped hop s

theorem Recounts.of_idle (hholdings : s.holdings = ∅) (hevents : s.events = []) :
    s.Recounts [] := by
  refine ⟨.of_idle hholdings hevents, ?_⟩
  rw [hevents]
  rfl

theorem recounts : Invariant Recounts where
  idle _ hholdings _ hevents := .of_idle hholdings hevents
  failed s calls e h := by
    refine ⟨?_, ?_⟩
    · have hsame := h.recorded
      rw [List.flatMap_append, List.flatMap_append]
      simpa [Call.made, Call.obtained, Operation.makes] using hsame
    · rw [h.drops, List.flatMap_append]
      simp [Call.dropped]
  run _ _ _ hop h := h.run hop

/-! ## The events of a commit -/

theorem mem_leaving {relationship : Text} {f : FlowFile} :
    (relationship, f) ∈ s.leaving ↔
      ∃ id h, s.holdings.get? id = some h ∧ h.fate = .route relationship ∧ h.current = f := by
  unfold leaving
  simp only [List.mem_filterMap, Table.mem_values]
  constructor
  · rintro ⟨h, ⟨id, hg⟩, hleaves⟩
    cases hf : h.fate with
    | route r =>
      simp only [hf, Option.some.injEq, Prod.mk.injEq] at hleaves
      exact ⟨id, h, hg, by rw [hf, hleaves.1], hleaves.2⟩
    | undecided | giveBack | drop => simp [hf] at hleaves
  · rintro ⟨id, h, hg, hf, rfl⟩
    exact ⟨h, ⟨id, hg⟩, by rw [hf]⟩

theorem mem_returning {f : FlowFile} :
    f ∈ s.returning ↔ ∃ id h, s.holdings.get? id = some h ∧ h.fate = .giveBack ∧ h.current = f := by
  unfold returning
  simp only [List.mem_map, List.mem_filter, Table.mem_values, decide_eq_true_eq]
  constructor
  · rintro ⟨h, ⟨⟨id, hg⟩, hf⟩, hcurrent⟩
    exact ⟨id, h, hg, hf, hcurrent⟩
  · rintro ⟨id, h, hg, hf, hcurrent⟩
    exact ⟨h, ⟨⟨id, hg⟩, hf⟩, hcurrent⟩

theorem all_leaving_ids (hs : s.Keyed) :
    (s.leaving.map fun e => e.2.id) = s.numbers fun h => h.fate.relationship?.isSome := by
  refine map_filterMap_values s _ _ _ fun id h hg => ?_
  rw [← hs.current id h hg]
  cases h.fate <;> rfl

/-- The flow files that leave have different numbers, whatever their relationships. -/
theorem leaving_ids_nodup (hs : s.Keyed) : (s.leaving.map fun e => e.2.id).Nodup := by
  rw [all_leaving_ids hs]
  exact Scope.numbers_nodup s _

/-- The fate that a number has. -/
def fate? (s : Session) (id : UInt64) : Option Fate := (s.holdings.get? id).map (·.fate)

theorem Recorded.fate?_of_route (hr : s.Recorded made start) {e : Provenance.Event}
    (he : e ∈ s.publication) (hkind : e.kind = .route) :
    s.fate? e.flowFile = some (.route e.relationship) := by
  rcases List.mem_append.1 he with he | he
  · exact absurd hkind (hr.routes e he)
  · obtain ⟨⟨relationship, f⟩, hleaves, rfl⟩ := List.mem_map.1 he
    obtain ⟨id, h, hg, hfate, rfl⟩ := mem_leaving.1 hleaves
    rw [← hr.keyed.current id h hg] at hg
    show (s.holdings.get? h.current.id).map _ = some (Fate.route relationship)
    rw [hg, Option.map_some, hfate]

theorem Recorded.fate?_of_drop (hr : s.Recorded made start) {e : Provenance.Event}
    (he : e ∈ s.publication) (hkind : e.kind = .drop) : s.fate? e.flowFile = some .drop := by
  rcases List.mem_append.1 he with he | he
  · have hmem : e.flowFile ∈ subjects s.events (·.kind = .drop) :=
      Provenance.mem_subjects.2 ⟨e, he, decide_eq_true hkind, rfl⟩
    have hcount := List.count_pos_iff.2 hmem
    rw [hr.drops] at hcount
    unfold fate?
    cases hg : s.holdings.get? e.flowFile with
    | none => simp [hg] at hcount
    | some h =>
      by_cases hd : h.fate = .drop
      · rw [Option.map_some, hd]
      · simp [hg, hd] at hcount
  · obtain ⟨d, -, rfl⟩ := List.mem_map.1 he
    cases hkind

theorem Recorded.fate?_of_returning (hr : s.Recorded made start) {f : FlowFile}
    (hf : f ∈ s.returning) : s.fate? f.id = some .giveBack := by
  obtain ⟨id, h, hg, hfate, rfl⟩ := mem_returning.1 hf
  rw [← hr.keyed.current id h hg] at hg
  unfold fate?
  rw [hg, Option.map_some, hfate]

/-- The events that a commit adds are about what leaves. -/
theorem subjects_publication (s : Session) (p : Provenance.Event → Bool) :
    subjects s.publication p = subjects s.events p ++
      (s.leaving.filter fun e =>
        p { kind := .route, flowFile := e.2.id, relationship := e.1 }).map (·.2.id) := by
  unfold publication
  rw [Provenance.subjects_append]
  unfold subjects
  rw [List.filter_map, List.map_map]
  rfl

/-- The events of a commit agree with the calls of its unit of work and with what it did: what it
`appended` to each relationship, what it `returned` to the queue, and how many flow files it
`removed`. -/
structure Reconciled (calls : List Call) (published : List Provenance.Event)
    (appended : Text → List FlowFile) (returned : List FlowFile) (removed : Nat) : Prop where
  /-- One event for each flow file that was made, and none else of these kinds. -/
  origins : subjects published (·.kind.isOrigin) = (calls.flatMap Call.made).map (·.id)
  /-- One event for each flow file that was routed, with its relationship. -/
  routes : ∀ relationship,
    subjects published (fun e => e.kind = .route ∧ e.relationship = relationship) =
      (appended relationship).map (·.id)
  /-- No flow file was routed twice. -/
  routes_nodup : (subjects published (·.kind = .route)).Nodup
  /-- One event for each flow file that was given up. -/
  drops : subjects published (·.kind = .drop) = calls.flatMap Call.dropped
  drops_nodup : (calls.flatMap Call.dropped).Nodup
  removed_eq : removed = (subjects published (·.kind = .drop)).length
  /-- No flow file was both routed and given up. -/
  route_or_drop : ∀ e ∈ published, ∀ d ∈ published, e.kind = .route → d.kind = .drop →
    e.flowFile ≠ d.flowFile
  /-- What went back to the queue was neither routed nor given up. -/
  returned_aside : ∀ f ∈ returned, ∀ e ∈ published, e.flowFile = f.id →
    e.kind ≠ .route ∧ e.kind ≠ .drop
  /-- What is different in a flow file from the version that was taken or made is told. -/
  changes : ∀ f, (f ∈ returned ∨ ∃ relationship, f ∈ appended relationship) →
    ∃ g ∈ calls.flatMap Call.obtained, g.id = f.id ∧ Explains published g f

/-- Each flow file that is given up was given up by one call. -/
theorem Recounts.dropped_perm {calls : List Call} (h : s.Recounts calls) :
    (calls.flatMap Call.dropped).Perm (s.numbers fun h => h.fate = .drop) :=
  List.perm_iff_count.2 fun id => by rw [← h.drops, h.recorded.drops, count_numbers]

/-- **What a session publishes reconciles with what it did.** -/
theorem Recounts.reconciled {calls : List Call} (h : s.Recounts calls) :
    Reconciled calls s.publication
      (fun relationship => (s.leaving.filter fun e => e.1 = relationship).map Prod.snd)
      s.returning s.dropping := by
  have hr := h.recorded
  have hdrops : subjects s.publication (·.kind = .drop) = calls.flatMap Call.dropped := by
    rw [subjects_publication, h.drops]
    simp
  have hperm := h.dropped_perm
  constructor
  · rw [subjects_publication, hr.origins]
    simp [Provenance.Kind.isOrigin]
  · intro relationship
    have hnone : subjects s.events
        (fun e => e.kind = .route ∧ e.relationship = relationship) = [] :=
      Provenance.subjects_eq_nil fun e he => decide_eq_false fun hroute => hr.routes e he hroute.1
    rw [subjects_publication, hnone, List.nil_append, List.map_map]
    simp only [true_and]
    rfl
  · have hnone : subjects s.events (·.kind = .route) = [] :=
      Provenance.subjects_eq_nil fun e he => decide_eq_false (hr.routes e he)
    rw [subjects_publication, hnone, List.nil_append]
    simpa using leaving_ids_nodup hr.keyed
  · exact hdrops
  · exact hperm.nodup_iff.2 (Scope.numbers_nodup s _)
  · rw [hdrops, hperm.length_eq, dropping_eq]
  · intro e he d hd hroute hdrop heq
    have hfate := hr.fate?_of_route he hroute
    rw [heq, hr.fate?_of_drop hd hdrop] at hfate
    cases hfate
  · intro f hf e he heq
    have hfate := hr.fate?_of_returning hf
    rw [← heq] at hfate
    refine ⟨fun hroute => ?_, fun hdrop => ?_⟩
    · rw [hr.fate?_of_route he hroute] at hfate
      cases hfate
    · rw [hr.fate?_of_drop he hdrop] at hfate
      cases hfate
  · intro f hf
    obtain ⟨id, g, hg, rfl⟩ : ∃ id g, s.holdings.get? id = some g ∧ g.current = f := by
      rcases hf with hf | ⟨relationship, hf⟩
      · obtain ⟨id, g, hg, -, hcurrent⟩ := mem_returning.1 hf
        exact ⟨id, g, hg, hcurrent⟩
      · obtain ⟨⟨r, f⟩, he, rfl⟩ := List.mem_map.1 hf
        obtain ⟨id, g, hg, -, hcurrent⟩ := mem_leaving.1 (List.mem_filter.1 he).1
        exact ⟨id, g, hg, hcurrent⟩
    obtain ⟨f', hf', hid, hexplains⟩ := hr.changes id g hg
    exact ⟨f', hf', hid.trans (hr.keyed.current id g hg).symm,
      hexplains.mono fun e he => List.mem_append_left _ he⟩

end Session

/-- **Published provenance reconciles with the outcome.**  The flow files of a workspace have
different numbers, and one of its sessions has nothing pending.  Whatever happens then, with
sessions working in turns: a commit of that session that goes through publishes events that agree
with the calls of its unit of work and with what the commit does, also if a commit failed before; a
rollback publishes nothing, and a commit that fails changes nothing.  As long as numbers are left,
what the session took and made has different numbers, so that no event tells of a flow file that was
taken that it came to be. -/
theorem Workspace.published_provenance {w : Workspace} (hw : w.Distinct) {n : Nat}
    (hidle : (w.session n).holdings = ∅ ∧ (w.session n).events = []) (events : List Event) :
    let v := events.foldl handle w
    let calls := recent (callsTo n (w.calls events))
    (∀ v', v.perform n .commit = (some (.ok .done), v') →
      ∃ published appended returned removed,
        v'.pool.provenance = v.pool.provenance ++ published ∧
        (∀ relationship, (v'.session n).routedTo relationship =
          (v.session n).routedTo relationship ++ appended relationship) ∧
        v'.pool.queue.flowFiles = v.pool.queue.flowFiles ++ returned ∧
        (v'.session n).removedCount = (v.session n).removedCount + removed ∧
        Session.Reconciled calls published appended returned removed) ∧
    (v.perform n .rollback).2.pool.provenance = v.pool.provenance ∧
    (∀ e, (v.perform n .commit).1 = some (.error e) → (v.perform n .commit).2 = v) ∧
    (w.pool.supply.nextId.toNat + (Custody.after w events).issued.length < UInt64.size →
      ((calls.flatMap Call.polled ++ calls.flatMap Call.made).map (·.id)).Nodup) := by
  intro v calls
  refine ⟨fun v' hcommit => ?_, provenance_perform_rollback v n,
    fun e he => perform_commit_of_error he, fun hlt => ?_⟩
  · have hrecounts : (v.session n).Recounts calls :=
      Session.recounts.foldl (.of_idle hidle.1 hidle.2) events
    have hcommittable : v.Committable n := committable_of_perform (by rw [hcommit])
    obtain rfl : v.publish n = v' := congrArg Prod.snd (hcommittable.perform.symm.trans hcommit)
    have hsession : (v.publish n).session n = (Scope.publish ⟨v.session n, v.pool⟩).session := by
      rw [session_publish hcommittable.isOpen, if_pos rfl]
    refine ⟨_, _, _, _, rfl, fun relationship => ?_, rfl, ?_, hrecounts.reconciled⟩
    · rw [hsession]
      exact Scope.routedTo_publish ⟨v.session n, v.pool⟩ relationship
    · rw [hsession]
      rfl
  · have hnodup := obtained_nodup hw (.of_empty hidle.1) events hlt
    exact ((Program.obtained_perm calls).map _).nodup_iff.1 hnodup

/-- A session takes flow file 7, changes and routes it, makes flow file 8 and drops it.  The first
commit comes too early; the second one publishes four events. -/
theorem Workspace.published_provenance_of_second_commit :
    let f : FlowFile := ⟨7, ∅, ⟨.caller 0, [104, 105]⟩, 0⟩
    let w : Workspace :=
      { pool := { supply := { nextId := 8 }, relationships := ["out"], queue := ⟨[f]⟩ },
        sessions := [{}] }
    let events : List Event :=
      [.call 0 .poll, .call 0 (.putAttribute f "seen" "yes"), .call 0 .create, .call 0 .commit,
        .call 0 (.drop ⟨8, ∅, default, 0⟩), .call 0 (.route f "out")]
    let v := events.foldl handle w
    let calls := recent (callsTo 0 (w.calls events))
    ∃ v', v.perform 0 .commit = (some (.ok .done), v') ∧
      v'.pool.provenance.map (fun e => (e.kind, e.flowFile)) =
        [(.attributesModified, 7), (.create, 8), (.drop, 8), (.route, 7)] ∧
      (∃ published appended returned removed,
        v'.pool.provenance = v.pool.provenance ++ published ∧
        Session.Reconciled calls published appended returned removed) ∧
      ((calls.flatMap Call.polled ++ calls.flatMap Call.made).map (·.id)).Nodup := by
  intro f w events v calls
  have hw : w.Distinct := by
    have hhand : w.inHand = [7] := by rfl
    refine ⟨fun n => .of_empty (by rcases n with - | n <;> rfl), ?_, fun id hid => ?_⟩
    · rw [hhand]
      decide
    · rw [hhand] at hid
      rw [List.mem_singleton.1 hid]
      decide
  obtain ⟨hcommits, -, -, hapart⟩ := published_provenance hw (n := 0) ⟨rfl, rfl⟩ events
  have hcommit : v.perform 0 .commit = (some (.ok .done), v.publish 0) :=
    Committable.perform ⟨by decide +kernel, by decide +kernel⟩
  obtain ⟨published, appended, returned, removed, hprovenance, -, -, -, hreconciled⟩ :=
    hcommits _ hcommit
  exact ⟨_, hcommit, by decide +kernel,
    ⟨published, appended, returned, removed, hprovenance, hreconciled⟩,
    hapart (by decide +kernel)⟩

end ProcessorBench
