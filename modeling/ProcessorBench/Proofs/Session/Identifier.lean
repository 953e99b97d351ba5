import ProcessorBench.Proofs.Session.Provenance
import ProcessorBench.Proofs.Session.Release

/-!
# Unique identifiers

A flow file gets a unique identifier when it is made, as one of its attributes.  Children and clones
copy the attributes of another flow file, callers may remove the identifier, and older versions come
back into the queue; yet an identifier stays with the number that it was given out with, as long as
callers do not write it themselves.

* `Workspace.Keeps` — the versions of flow files that are kept anywhere.
* `Operation.run_derives` — where the versions that are kept after a call come from.
* `Workspace.Stamped` — the invariant: numbers and identifiers are given out together, and each
  version has the identifier that goes with its number, or none.
* `Workspace.uuid_follows_number` — so two flow files never share an identifier.
-/

set_option autoImplicit false

namespace ProcessorBench

open Program (Call)

/-- The unique identifier of a flow file, if it has one. -/
def FlowFile.uuid? (f : FlowFile) : Option Text := f.attribute? Attributes.uuid

/-! ## Versions that are kept -/

/-- A session keeps this version of a flow file. -/
inductive Session.Keeps (s : Session) (f : FlowFile) : Prop where
  | current (id : UInt64) (h : Holding) (held : s.holdings.get? id = some h)
      (current : h.current = f)
  | polled (id : UInt64) (h : Holding) (held : s.holdings.get? id = some h)
      (polled : h.polled = some f)
  | routed (relationship : Text) (routed : f ∈ s.routedTo relationship)

/-- A session or the queue keeps this version of a flow file. -/
def Scope.Keeps (s : Scope) (f : FlowFile) : Prop :=
  f ∈ s.pool.queue.flowFiles ∨ s.session.Keeps f

/-- The workspace keeps this version of a flow file. -/
def Workspace.Keeps (w : Workspace) (f : FlowFile) : Prop :=
  f ∈ w.pool.queue.flowFiles ∨ ∃ n, (w.session n).Keeps f

namespace Session

variable {s s' : Session} {f g : FlowFile}

/-- What is kept afterwards was kept before, or is among what came in with the holdings. -/
theorem Keeps.of_change {P : FlowFile → Prop} (h : s'.Keeps f) (hrouted : s'.routed = s.routed)
    (hholdings : ∀ id h, s'.holdings.get? id = some h →
      (s.Keeps h.current ∨ P h.current) ∧ ∀ g, h.polled = some g → s.Keeps g ∨ P g) :
    s.Keeps f ∨ P f := by
  cases h with
  | current id h held current => exact current ▸ (hholdings id h held).1
  | polled id h held polled => exact (hholdings id h held).2 f polled
  | routed relationship routed =>
    unfold routedTo at routed
    rw [hrouted] at routed
    exact .inl (.routed relationship routed)

theorem Keeps.of_holding {id : UInt64} {h : Holding} (hg : s.holdings.get? id = some h)
    (P : FlowFile → Prop) :
    (s.Keeps h.current ∨ P h.current) ∧ ∀ g, h.polled = some g → s.Keeps g ∨ P g :=
  ⟨.inl (.current id h hg rfl), fun _ hp => .inl (.polled id h hg hp)⟩

/-- What is kept depends on the holdings and on what was committed. -/
theorem Keeps.of_eq (h : s'.Keeps f) (hholdings : s'.holdings = s.holdings)
    (hrouted : s'.routed = s.routed) : s.Keeps f := by
  refine (h.of_change (P := fun _ => False) hrouted fun id h hg => ?_).resolve_right id
  rw [hholdings] at hg
  exact of_holding hg fun _ => False

theorem Keeps.of_holdPolled (h : (s.holdPolled g).Keeps f) : s.Keeps f ∨ f = g := by
  have hrouted : (s.holdPolled g).routed = s.routed := by
    unfold holdPolled
    split <;> rfl
  refine h.of_change (P := (· = g)) hrouted fun id h hg => ?_
  rw [get?_holdPolled] at hg
  split at hg
  · cases hold : s.holdings.get? g.id with
    | none =>
      rw [hold] at hg
      obtain rfl := Option.some.inj hg
      exact ⟨.inr rfl, fun f hf => .inr (Option.some.inj hf).symm⟩
    | some old =>
      rw [hold] at hg
      obtain rfl := Option.some.inj hg
      refine ⟨(of_holding hold (· = g)).1, fun f hf => ?_⟩
      -- the version that was polled first stays
      cases hp : old.polled with
      | none =>
        simp only [polledHolding, hp, Option.getD_none, Option.some.injEq] at hf
        exact .inr hf.symm
      | some first =>
        simp only [polledHolding, hp, Option.getD_some, Option.some.injEq] at hf
        exact (of_holding hold (· = g)).2 f (hp.trans (congrArg some hf))
  · exact of_holding hg (· = g)

theorem Keeps.of_foldl_holdPolled {fs : List FlowFile} (h : (fs.foldl holdPolled s).Keeps f) :
    s.Keeps f ∨ f ∈ fs := by
  induction fs generalizing s with
  | nil => exact .inl h
  | cons g rest ih =>
    rcases ih h with h | hf
    · rcases h.of_holdPolled with h | rfl
      · exact .inl h
      · exact .inr List.mem_cons_self
    · exact .inr (List.mem_cons_of_mem g hf)

theorem Keeps.of_hold (h : (s.hold g).Keeps f) : s.Keeps f ∨ f = g := by
  refine h.of_change (P := (· = g)) rfl fun id h hg => ?_
  rw [get?_hold] at hg
  split at hg
  · cases hold : s.holdings.get? g.id with
    | none =>
      rw [hold] at hg
      obtain rfl := Option.some.inj hg
      exact ⟨.inr rfl, nofun⟩
    | some old =>
      rw [hold] at hg
      obtain rfl := Option.some.inj hg
      exact of_holding hold (· = g)
  · exact of_holding hg (· = g)

end Session

/-! ## Where versions come from -/

/-- A version that is kept after a call, or answered by it, stems from what was kept before: it was
kept itself, or it is the next version of a kept one, with the attributes that the operation gives
it.  Otherwise the call made it. -/
inductive Operation.Derives (op : Operation) (s : Scope) (f : FlowFile) : Prop where
  | kept (h : s.Keeps f)
  | edited (g : FlowFile) (kept : s.Keeps g) (number : f.id = g.id)
      (attributes : f.attributes = op.reattribute g.attributes)
  | made (h : f ∈ Call.made (op, (op.run s).1))

namespace Operation

variable {op : Operation} {s : Scope} {f : FlowFile}

/-- What a call answers stems from what was kept before it, or was made by it. -/
theorem answered_derives (hs : s.session.Keyed) (hf : f ∈ Call.answered (op, (op.run s).1)) :
    op.Derives s f := by
  cases hop : op.settles with
  | true =>
    rw [answered_of_settles hop] at hf
    cases hf
  | false =>
    obtain ⟨fs, htakes⟩ | ⟨g, kind, details, hmakes⟩ | hrests := op.course s
    · rw [htakes.answer] at hf
      refine .kept (.inl ?_)
      rw [htakes.queue]
      exact List.mem_append_left _ hf
    · rw [hmakes.answer] at hf
      refine .made ?_
      rw [hmakes.made]
      exact hf
    · cases hedits : op.edits with
      | false =>
        rw [answered_of_not_edits hop hrests.polls hrests.fails hedits] at hf
        cases hf
      | true =>
        obtain ⟨e, hrun⟩ | ⟨f', g, h, t, hrun, hedited⟩ := run_edits hedits hs
        · rw [hrun] at hf
          cases hf
        · rw [hrun] at hf
          obtain rfl : f = g := List.mem_singleton.1 hf
          have hg := (hs.open_of_held hedited.held).1
          exact .edited h.current (.inr (.current _ h hg rfl)) hedited.number hedited.attributes

/-- A commit puts latest versions into the queue and the relationships. -/
theorem keeps_publish (h : s.publish.Keeps f) : s.Keeps f := by
  rcases h with h | h
  · rcases List.mem_append.1 h with h | h
    · exact .inl h
    · obtain ⟨id, g, hg, -, hcurrent⟩ := Session.mem_returning.1 h
      exact .inr (.current id g hg hcurrent)
  · cases h with
    | current id h held => cases held
    | polled id h held => cases held
    | routed relationship routed =>
      rw [Scope.routedTo_publish] at routed
      rcases List.mem_append.1 routed with h | h
      · exact .inr (.routed relationship h)
      · obtain ⟨⟨r, g⟩, hmem, rfl⟩ := List.mem_map.1 h
        obtain ⟨id, h, hg, -, hcurrent⟩ := Session.mem_leaving.1 (List.mem_filter.1 hmem).1
        exact .inr (.current id h hg hcurrent)

/-- A rollback puts versions that were polled into the queue. -/
theorem keeps_rollback (h : s.rollback.Keeps f) : s.Keeps f := by
  rcases h with h | h
  · rcases List.mem_append.1 h with h | h
    · exact .inl h
    · obtain ⟨id, hid⟩ := Session.mem_taken.1 h
      obtain ⟨g, hg, hpolled⟩ := Option.bind_eq_some_iff.1 hid
      exact .inr (.polled id g hg hpolled)
  · cases h with
    | current id h held => cases held
    | polled id h held => cases held
    | routed relationship routed => exact .inr (.routed relationship routed)

/-- What a session keeps after a call that neither takes nor makes flow files: what it kept, and the
versions that the call answers. -/
theorem run_derives_of_rests (hop : op.settles = false) (hrests : op.Rests s)
    (hs : s.session.Keyed) (h : (op.run s).2.session.Keeps f) : op.Derives s f := by
  have hroutedTo : ∀ relationship, f ∈ (op.run s).2.session.routedTo relationship → s.Keeps f := by
    intro relationship hf
    obtain ⟨hsucceeds, -⟩ | ⟨-, hworks | rfl⟩ := op.made_or_works hop s
    · rw [hrests.fails] at hsucceeds
      cases hsucceeds
    · unfold Session.routedTo at hf
      rw [hworks.unpublished.routed] at hf
      exact .inr (.routed relationship hf)
    · cases hf
  have hdevelops := run_develops hop hrests.polls hrests.fails hs
  cases h with
  | routed relationship routed => exact .kept (hroutedTo relationship routed)
  | current id h held current =>
    rw [hdevelops.holdings] at held
    obtain ⟨old, hold, rfl⟩ := Option.map_eq_some_iff.1 held
    unfold Holding.develop at current
    cases hlast : lastWith (·.id) (Call.answered (op, (op.run s).1)) id with
    | none =>
      rw [hlast] at current
      exact .kept (.inr (.current id old hold current))
    | some g =>
      rw [hlast] at current
      obtain rfl : g = f := current
      exact answered_derives hs (mem_of_lastWith hlast).1
  | polled id h held polled =>
    rw [hdevelops.holdings] at held
    obtain ⟨old, hold, rfl⟩ := Option.map_eq_some_iff.1 held
    exact .kept (.inr (.polled id old hold polled))

/-- **What is kept after a call stems from what was kept before it, or was made by it.** -/
theorem run_derives (hs : s.session.Keyed) (h : (op.run s).2.Keeps f) : op.Derives s f := by
  cases hop : op.settles with
  | true =>
    obtain rfl | rfl := commit_or_rollback hop
    · obtain ⟨-, hrun⟩ | ⟨e, hrun⟩ := run_commit s
      · rw [hrun] at h
        exact .kept (keeps_publish h)
      · rw [hrun] at h
        exact .kept h
    · exact .kept (keeps_rollback h)
  | false =>
    obtain ⟨fs, htakes⟩ | ⟨g, kind, details, hmakes⟩ | hrests := op.course s
    · refine .kept ?_
      rcases h with h | h
      · exact .inl (htakes.queue ▸ List.mem_append_right _ h)
      · rw [htakes.session] at h
        rcases h.of_foldl_holdPolled with h | hf
        · exact .inr h
        · exact .inl (htakes.queue ▸ List.mem_append_left _ hf)
    · have hqueue := run_queue hop (polls_of_makes hmakes.makes) s
      rcases h with h | h
      · exact .kept (.inl (hqueue ▸ h))
      · rw [hmakes.session] at h
        have hhold : (s.session.hold g).Keeps f := h.of_eq rfl rfl
        rcases hhold.of_hold with h | rfl
        · exact .kept (.inr h)
        · refine .made ?_
          rw [hmakes.made]
          exact List.mem_singleton_self f
    · have hqueue := run_queue hop hrests.polls s
      rcases h with h | h
      · exact .kept (.inl (hqueue ▸ h))
      · exact run_derives_of_rests hop hrests hs h

end Operation

/-! ## Numbers and identifiers -/

/-- Both supplies give out the same numbers and identifiers next. -/
structure Supply.Level (s t : Supply) : Prop where
  nextId : t.nextId = s.nextId
  uuids : t.uuids = s.uuids
  sources : t.sources = s.sources

/-- The flow file took the next number and the next identifier. -/
structure Supply.Stamps (s t : Supply) (f : FlowFile) : Prop where
  id : f.id = s.nextId
  uuid : f.uuid? = some (s.sources.uuid s.uuids)
  nextId : t.nextId = s.nextId + 1
  uuids : t.uuids = s.uuids + 1
  sources : t.sources = s.sources

theorem Scope.Works.level {s s' : Scope} (hw : s.Works s') :
    s.pool.supply.Level s'.pool.supply := by
  induction hw with
  | refl => exact ⟨rfl, rfl, rfl⟩
  | tail _ ht ih =>
    cases ht with
    | count name delta immediate =>
      unfold adjustCounter
      split <;> exact ih
    | _ => exact ⟨ih.nextId, ih.uuids, ih.sources⟩

theorem Scope.coreAttributes_uuid (id : UInt64) (uuid : Text) :
    (coreAttributes id uuid).get? Attributes.uuid = some uuid := by
  unfold coreAttributes Table.ofList
  rw [List.foldl_cons, List.foldl_cons, List.foldl_cons, List.foldl_nil, Table.get?_insert,
    if_pos rfl]

namespace Operation

variable {op : Operation} {s : Scope} {f : FlowFile}

/-- The operation leaves it to the session to write unique identifiers. -/
def sparesUuid : Operation → Bool
  | putAttribute _ key _ => key ≠ Attributes.uuid
  | putAttributes _ attributes => !attributes.contains Attributes.uuid
  | _ => true

/-- Such an operation keeps an identifier, or removes it. -/
theorem get?_reattribute (hop : op.sparesUuid = true) {a : Attributes} {u : Text}
    (hu : (op.reattribute a).get? Attributes.uuid = some u) : a.get? Attributes.uuid = some u := by
  cases op with
  | putAttribute g key value =>
    have hkey : key ≠ Attributes.uuid := of_decide_eq_true hop
    unfold reattribute at hu
    rw [Table.get?_insert, if_neg fun heq => hkey heq.symm] at hu
    exact hu
  | putAttributes g attributes =>
    have hnone : attributes.get? Attributes.uuid = none := by
      simpa [sparesUuid, Table.contains] using hop
    unfold reattribute at hu
    rwa [Table.get?_merge, hnone] at hu
  | removeAttribute g key =>
    unfold reattribute at hu
    rw [Table.get?_erase] at hu
    split at hu
    · cases hu
    · exact hu
  | _ => exact hu

/-- **A flow file that is made gets the next number and the next identifier.** -/
theorem run_made_stamps (hmade : op.made s = true) :
    ∃ f, (op.run s).1 = .ok (.flowFile f) ∧
      s.pool.supply.Stamps (op.run s).2.pool.supply f := by
  cases op with
  | create =>
    exact ⟨_, rfl, rfl, Scope.coreAttributes_uuid s.pool.supply.nextId _, rfl, rfl, rfl⟩
  | createChild parent =>
    simp only [made, makes, run, run.answer, Scope.createChild] at hmade ⊢
    rcases Scope.withHeld_cases s parent _ with ⟨fault, -, hrun⟩ | ⟨h, -, hrun⟩
    · rw [hrun] at hmade
      cases hmade
    · rw [hrun]
      exact ⟨_, rfl, rfl, (Table.get?_insert _ _ _ _).trans (if_pos rfl), rfl, rfl, rfl⟩
  | clone source =>
    simp only [made, makes, run, run.answer, Scope.clone] at hmade ⊢
    rcases Scope.withHeld_cases s source _ with ⟨fault, -, hrun⟩ | ⟨h, -, hrun⟩
    · rw [hrun] at hmade
      cases hmade
    · rw [hrun]
      exact ⟨_, rfl, rfl, (Table.get?_insert _ _ _ _).trans (if_pos rfl), rfl, rfl, rfl⟩
  | _ => cases hmade

/-- A call that makes no flow file takes neither. -/
theorem run_level (hmade : op.made s = false) : s.pool.supply.Level (op.run s).2.pool.supply := by
  cases hop : op.settles with
  | true =>
    obtain rfl | rfl := commit_or_rollback hop
    · obtain ⟨-, hrun⟩ | ⟨e, hrun⟩ := run_commit s <;> rw [hrun] <;> exact ⟨rfl, rfl, rfl⟩
    · exact ⟨rfl, rfl, rfl⟩
  | false =>
    obtain ⟨htrue, -⟩ | ⟨-, hworks | rfl⟩ := op.made_or_works hop s
    · rw [hmade] at htrue
      cases htrue
    · exact hworks.level
    · exact ⟨rfl, rfl, rfl⟩

/-- A call makes one flow file, which takes the next number and the next identifier, or takes
neither. -/
theorem run_supply (op : Operation) (s : Scope) :
    (∃ f, Call.made (op, (op.run s).1) = [f] ∧
      s.pool.supply.Stamps (op.run s).2.pool.supply f) ∨
    (Call.made (op, (op.run s).1) = [] ∧ s.pool.supply.Level (op.run s).2.pool.supply) := by
  obtain ⟨fs, htakes⟩ | ⟨f, kind, details, hmakes⟩ | hrests := op.course s
  · exact .inr ⟨htakes.made, run_level htakes.fails⟩
  · obtain ⟨g, hanswer, hstamps⟩ := run_made_stamps hmakes.succeeds
    obtain rfl : g = f := by
      rw [hmakes.answer] at hanswer
      cases hanswer
      rfl
    exact .inl ⟨g, hmakes.made, hstamps⟩
  · exact .inr ⟨hrests.made, run_level hrests.fails⟩

end Operation

/-- A flow file that is made for the queue gets them too. -/
theorem Bench.makeFlowFile_stamps (supply : Supply) (bytes : List UInt8) {attributes : Attributes}
    (hspares : attributes.contains Attributes.uuid = false) :
    ∃ f supply', makeFlowFile supply bytes attributes = (.ok f, supply') ∧
      supply.Stamps supply' f := by
  obtain ⟨f, supply', hmake, hmakes⟩ := makeFlowFile_spec supply bytes attributes
  refine ⟨f, supply', hmake, hmakes.id, ?_, hmakes.nextId, hmakes.uuids, hmakes.sources⟩
  have hnone : attributes.get? Attributes.uuid = none := by
    simpa [Table.contains] using hspares
  show f.attributes.get? Attributes.uuid = _
  rw [hmakes.attributes, Table.get?_merge, hnone, Scope.coreAttributes_uuid]
  rfl

/-! ## The invariant -/

/-- The version has the identifier that goes with its number, or none.  Both were the `i`-th ones
that were given out, of `k` so far. -/
def FlowFile.Stamped (first : UInt64) (sources : Sources) (start k : Nat) (f : FlowFile) : Prop :=
  ∀ u, f.uuid? = some u → ∃ i < k, f.id = first + .ofNat i ∧ u = sources.uuid (start + i)

section Stamped

variable {first : UInt64} {sources : Sources} {start k : Nat}

theorem FlowFile.Stamped.mono {k' : Nat} {f : FlowFile} (h : f.Stamped first sources start k)
    (hk : k ≤ k') : f.Stamped first sources start k' := by
  intro u hu
  obtain ⟨i, hi, hstamp⟩ := h u hu
  exact ⟨i, Nat.lt_of_lt_of_le hi hk, hstamp⟩

/-- The flow file that is made next has the next identifier. -/
theorem Supply.Stamps.stamped {s t : Supply} {f : FlowFile} (h : s.Stamps t f)
    (hnext : s.nextId = first + .ofNat k) (huuids : s.uuids = start + k)
    (hsources : s.sources = sources) : f.Stamped first sources start (k + 1) := by
  intro u hu
  rw [h.uuid, Option.some.injEq, huuids, hsources] at hu
  exact ⟨k, Nat.lt_succ_self k, h.id.trans hnext, hu.symm⟩

/-- What stems from stamped versions is stamped, if the call makes no flow file. -/
theorem Operation.Derives.stamped {op : Operation} {s : Scope} {f : FlowFile}
    (h : op.Derives s f) (hspares : op.sparesUuid = true)
    (hkept : ∀ g, s.Keeps g → g.Stamped first sources start k)
    (hmade : ∀ g ∈ Call.made (op, (op.run s).1), g.Stamped first sources start k) :
    f.Stamped first sources start k := by
  cases h with
  | kept h => exact hkept f h
  | made h => exact hmade f h
  | edited g kept number attributes =>
    intro u hu
    have hu' : f.attributes.get? Attributes.uuid = some u := hu
    rw [attributes] at hu'
    rw [number]
    exact hkept g kept u (get?_reattribute hspares hu')

end Stamped

namespace Workspace

/-- Numbers and identifiers were given out together, `k` of each, and every version that is kept has
the identifier that goes with its number, or none. -/
structure Stamped (first : UInt64) (sources : Sources) (start k : Nat) (w : Workspace) : Prop where
  nextId : w.pool.supply.nextId = first + .ofNat k
  uuids : w.pool.supply.uuids = start + k
  sources_eq : w.pool.supply.sources = sources
  keyed : ∀ n, (w.session n).Keyed
  kept : ∀ f, w.Keeps f → f.Stamped first sources start k

/-- The event leaves it to the sessions to write unique identifiers. -/
def Event.sparesUuid : Event → Bool
  | .openSession => true
  | .enqueue _ attributes => !attributes.contains Attributes.uuid
  | .call _ op => op.sparesUuid

variable {first : UInt64} {sources : Sources} {start k : Nat} {w : Workspace} {n : Nat} {s : Scope}

theorem keeps_of_scope? (hs : w.scope? n = some s) {f : FlowFile} (h : s.Keeps f) : w.Keeps f := by
  obtain ⟨-, hsession, hpool⟩ := scope?_eq_some hs
  rcases h with h | h
  · exact .inl (hpool ▸ h)
  · exact .inr ⟨n, hsession ▸ h⟩

theorem keeps_resume (hn : n < w.sessions.length) {f : FlowFile} (h : (w.resume n s).Keeps f) :
    s.Keeps f ∨ w.Keeps f := by
  rcases h with h | ⟨m, h⟩
  · exact .inl (.inl h)
  · rw [session_resume hn] at h
    split at h
    · exact .inl (.inr h)
    · exact .inr (.inr ⟨m, h⟩)

/-- **A call keeps the invariant**, and what it answers obeys it. -/
theorem Stamped.call (h : w.Stamped first sources start k) (hs : w.scope? n = some s)
    {op : Operation} (hspares : op.sparesUuid = true) :
    ∃ k' ≥ k, (w.resume n (op.run s).2).Stamped first sources start k' ∧
      ∀ f ∈ Call.answered (op, (op.run s).1), f.Stamped first sources start k' := by
  obtain ⟨hn, hsession, hpool⟩ := scope?_eq_some hs
  have hkeyed : s.session.Keyed := hsession ▸ h.keyed n
  -- how many numbers the call takes, and what flow files it makes with them
  obtain ⟨k', hk, hnextId, huuids, hsources, hmade⟩ : ∃ k' ≥ k,
      (op.run s).2.pool.supply.nextId = first + .ofNat k' ∧
      (op.run s).2.pool.supply.uuids = start + k' ∧
      (op.run s).2.pool.supply.sources = sources ∧
      ∀ g ∈ Call.made (op, (op.run s).1), g.Stamped first sources start k' := by
    have hnext : s.pool.supply.nextId = first + .ofNat k := hpool ▸ h.nextId
    have huuids : s.pool.supply.uuids = start + k := hpool ▸ h.uuids
    have hsources : s.pool.supply.sources = sources := hpool ▸ h.sources_eq
    obtain ⟨f, hmade, hstamps⟩ | ⟨hmade, hlevel⟩ := op.run_supply s
    · refine ⟨k + 1, Nat.le_succ k, ?_, ?_, hstamps.sources.trans hsources, fun g hg => ?_⟩
      · rw [hstamps.nextId, hnext, Supply.next_succ]
      · rw [hstamps.uuids, huuids, Nat.add_assoc]
      · rw [hmade] at hg
        rw [List.mem_singleton.1 hg]
        exact hstamps.stamped hnext huuids hsources
    · refine ⟨k, Nat.le_refl k, hlevel.nextId.trans hnext, hlevel.uuids.trans huuids,
        hlevel.sources.trans hsources, fun g hg => ?_⟩
      rw [hmade] at hg
      cases hg
  have hkept : ∀ g, w.Keeps g → g.Stamped first sources start k' :=
    fun g hg => (h.kept g hg).mono hk
  have hscope : ∀ g, s.Keeps g → g.Stamped first sources start k' :=
    fun g hg => hkept g (keeps_of_scope? hs hg)
  refine ⟨k', hk, ⟨hnextId, huuids, hsources, fun m => ?_, fun f hf => ?_⟩, fun f hf => ?_⟩
  · rw [session_resume hn]
    split
    · exact op.run_keyed hkeyed
    · exact h.keyed m
  · rcases keeps_resume hn hf with hf | hf
    · exact (Operation.run_derives hkeyed hf).stamped hspares hscope hmade
    · exact hkept f hf
  · exact (Operation.answered_derives hkeyed hf).stamped hspares hscope hmade

theorem Stamped.openSession (h : w.Stamped first sources start k) :
    w.openSession.2.Stamped first sources start k := by
  refine ⟨h.nextId, h.uuids, h.sources_eq, fun m => ?_, fun f hf => h.kept f ?_⟩
  · rw [session_openSession]
    exact h.keyed m
  · rcases hf with hf | ⟨m, hf⟩
    · exact .inl hf
    · rw [session_openSession] at hf
      exact .inr ⟨m, hf⟩

/-- A flow file that is queued has the next number and the next identifier. -/
theorem Stamped.enqueue (h : w.Stamped first sources start k) (bytes : List UInt8)
    {attributes : Attributes} (hspares : attributes.contains Attributes.uuid = false) :
    (w.enqueueBytes bytes attributes).Stamped first sources start (k + 1) := by
  obtain ⟨f, supply, hmake, hstamps⟩ := Bench.makeFlowFile_stamps w.pool.supply bytes hspares
  unfold enqueueBytes
  rw [hmake]
  refine ⟨?_, ?_, hstamps.sources.trans h.sources_eq, h.keyed, fun g hg => ?_⟩
  · rw [← Supply.next_succ, ← h.nextId]
    exact hstamps.nextId
  · rw [← Nat.add_assoc, ← h.uuids]
    exact hstamps.uuids
  · have hold : w.Keeps g → g.Stamped first sources start (k + 1) := fun hg =>
      (h.kept g hg).mono (Nat.le_succ k)
    rcases hg with hg | hg
    · rcases List.mem_append.1 hg with hg | hg
      · exact hold (.inl hg)
      · rw [List.mem_singleton.1 hg]
        exact hstamps.stamped h.nextId h.uuids h.sources_eq
    · exact hold (.inr hg)

/-- **Each event keeps the invariant**, and what it answers obeys it. -/
theorem Stamped.handle (h : w.Stamped first sources start k) {e : Event}
    (hspares : e.sparesUuid = true) :
    ∃ k' ≥ k, (w.handle e).Stamped first sources start k' ∧
      ∀ c ∈ w.answered e, ∀ f ∈ c.2.answered, f.Stamped first sources start k' := by
  cases e with
  | openSession => exact ⟨k, Nat.le_refl k, h.openSession, fun _ hc => absurd hc List.not_mem_nil⟩
  | enqueue bytes attributes =>
    have hnone : attributes.contains Attributes.uuid = false := by
      simpa [Event.sparesUuid] using hspares
    exact ⟨k + 1, Nat.le_succ k, h.enqueue bytes hnone, fun _ hc => absurd hc List.not_mem_nil⟩
  | call n op =>
    cases hs : w.scope? n with
    | none =>
      rw [handle_call_of_none hs, answered_call_of_none hs]
      exact ⟨k, Nat.le_refl k, h, fun _ hc => absurd hc List.not_mem_nil⟩
    | some s =>
      rw [handle_call hs, answered_call hs]
      obtain ⟨k', hk, hstamped, hanswered⟩ := h.call hs hspares
      refine ⟨k', hk, hstamped, fun c hc => ?_⟩
      obtain rfl := List.mem_singleton.1 hc
      exact hanswered

/-- **A row of events keeps the invariant**, and what they answer obeys it. -/
theorem Stamped.foldl (h : w.Stamped first sources start k) {events : List Event}
    (hspares : ∀ e ∈ events, e.sparesUuid = true) :
    ∃ k' ≥ k, (events.foldl Workspace.handle w).Stamped first sources start k' ∧
      ∀ c ∈ w.calls events, ∀ f ∈ c.2.answered, f.Stamped first sources start k' := by
  induction events generalizing w k with
  | nil => exact ⟨k, Nat.le_refl k, h, fun _ hc => absurd hc List.not_mem_nil⟩
  | cons e rest ih =>
    obtain ⟨hfirst, hrest⟩ := List.forall_mem_cons.1 hspares
    obtain ⟨k₁, hk₁, hstamped, hanswered⟩ := h.handle hfirst
    obtain ⟨k₂, hk₂, hstamped₂, hanswered₂⟩ := ih hstamped hrest
    refine ⟨k₂, Nat.le_trans hk₁ hk₂, hstamped₂, fun c hc f hf => ?_⟩
    rcases List.mem_append.1 hc with hc | hc
    · exact (hanswered c hc f hf).mono hk₂
    · exact hanswered₂ c hc f hf

/-- Nothing was given out yet, and nothing is kept. -/
theorem Stamped.initial (hqueue : w.pool.queue.flowFiles = []) (hsessions : w.sessions = []) :
    w.Stamped w.pool.supply.nextId w.pool.supply.sources w.pool.supply.uuids 0 := by
  have hempty : ∀ n, w.session n = {} := fun n => by
    unfold session
    rw [hsessions]
    rfl
  refine ⟨(UInt64.add_zero _).symm, rfl, rfl, fun n => .of_empty (by rw [hempty]),
    fun f hf => ?_⟩
  rcases hf with hf | ⟨n, hf⟩
  · rw [hqueue] at hf
    cases hf
  · rw [hempty] at hf
    cases hf with
    | current id h held => cases held
    | polled id h held => cases held
    | routed relationship routed => cases routed

/-- The version is kept after the events, or one of their calls answered it. -/
def Sees (w : Workspace) (events : List Event) (f : FlowFile) : Prop :=
  (events.foldl handle w).Keeps f ∨ ∃ c ∈ w.calls events, f ∈ c.2.answered

/-- A flow file has an identifier when it is made. -/
theorem isSome_uuid_of_made {events : List Event} {c : Nat × Call} (hc : c ∈ w.calls events)
    {f : FlowFile} (hf : f ∈ c.2.made) : f.uuid?.isSome := by
  obtain ⟨before, op, later, s, -, -, hcall⟩ := exists_of_mem_calls hc
  rw [hcall] at hf
  obtain ⟨g, hmade, hstamps⟩ | ⟨hmade, -⟩ := op.run_supply s
  · rw [hmade] at hf
    rw [List.mem_singleton.1 hf, hstamps.uuid]
    rfl
  · rw [hmade] at hf
    cases hf

end Workspace

/-- **Flow files never share an identifier.**  Sessions are opened on a workspace that has none yet
and whose queue is empty, and content is queued.  Whatever happens then, and whatever identifiers
are drawn, as long as nobody writes any and none is drawn twice: two versions with different numbers
that have an identifier have different ones.  While numbers do not start over, two versions with the
same number have the same one.  Every flow file has one when it is made, whatever became of the
identifier of the flow file that it stems from. -/
theorem Workspace.uuid_follows_number {w : Workspace} (hqueue : w.pool.queue.flowFiles = [])
    (hsessions : w.sessions = []) {events : List Event}
    (hspares : ∀ e ∈ events, e.sparesUuid = true) :
    let v := events.foldl handle w
    (∀ i j, w.pool.supply.uuids ≤ i → i < v.pool.supply.uuids →
      w.pool.supply.uuids ≤ j → j < v.pool.supply.uuids →
      w.pool.supply.sources.uuid i = w.pool.supply.sources.uuid j → i = j) →
    (∀ f g u u', w.Sees events f → w.Sees events g → f.uuid? = some u → g.uuid? = some u' →
      f.id ≠ g.id → u ≠ u') ∧
    (v.pool.supply.uuids ≤ w.pool.supply.uuids + UInt64.size →
      ∀ f g u u', w.Sees events f → w.Sees events g → f.uuid? = some u → g.uuid? = some u' →
        f.id = g.id → u = u') ∧
    ∀ c ∈ w.calls events, ∀ f ∈ c.2.made, f.uuid?.isSome := by
  intro v hunique
  obtain ⟨k, -, hv, hanswered⟩ := (Stamped.initial hqueue hsessions).foldl hspares
  have huuids : v.pool.supply.uuids = w.pool.supply.uuids + k := hv.uuids
  have hstamped : ∀ f, w.Sees events f →
      f.Stamped w.pool.supply.nextId w.pool.supply.sources w.pool.supply.uuids k := by
    rintro f (hf | ⟨c, hc, hf⟩)
    · exact hv.kept f hf
    · exact hanswered c hc f hf
  refine ⟨fun f g u u' hf hg hu hu' hne heq => ?_, fun hlt f g u u' hf hg hu hu' hid => ?_,
    fun c hc f hf => isSome_uuid_of_made hc hf⟩
  · obtain ⟨i, hi, hfid, hui⟩ := hstamped f hf u hu
    obtain ⟨j, hj, hgid, huj⟩ := hstamped g hg u' hu'
    have hij := hunique (w.pool.supply.uuids + i) (w.pool.supply.uuids + j) (by omega) (by omega)
      (by omega) (by omega) (hui.symm.trans (heq.trans huj))
    obtain rfl : i = j := by omega
    exact hne (hfid.trans hgid.symm)
  · obtain ⟨i, hi, hfid, hui⟩ := hstamped f hf u hu
    obtain ⟨j, hj, hgid, huj⟩ := hstamped g hg u' hu'
    obtain rfl : i = j := Supply.offset_inj (by omega) (by omega) (hfid.symm.trans (hid.trans hgid))
    exact hui.trans huj.symm

/-- A session takes flow file 0 and removes its identifier; the child that it makes then has one,
and so has what another session makes.  The rollback brings back the version that has one. -/
theorem Workspace.uuid_follows_number_of_child :
    let f : FlowFile := ⟨0, ∅, default, 0⟩
    let w : Workspace := { pool := {} }
    let events : List Event :=
      [.openSession, .openSession, .enqueue [104, 105] ∅, .call 0 .poll,
        .call 0 (.removeAttribute f Attributes.uuid), .call 0 (.createChild f), .call 1 .create,
        .call 0 .rollback]
    let v := events.foldl handle w
    let made := (w.calls events).flatMap fun c => c.2.made
    v.pool.queue.flowFiles.map (·.id) = [0] ∧ made.map (·.id) = [1, 2] ∧
      (∀ g ∈ made, g.uuid?.isSome) ∧
      ∀ f ∈ v.pool.queue.flowFiles, ∀ g ∈ made, f.id ≠ g.id ∧ f.uuid? ≠ g.uuid? := by
  intro f w events v made
  have hqueue : w.pool.queue.flowFiles = [] := rfl
  have hsessions : w.sessions = [] := rfl
  have hsources : w.pool.supply.sources = .counting := rfl
  have huuids : v.pool.supply.uuids = 3 := by decide +kernel
  have hspares : ∀ e ∈ events, e.sparesUuid = true := by decide +kernel
  have hseen : ∀ g ∈ made, ∃ c ∈ w.calls events, g ∈ c.2.answered := by decide +kernel
  have hids : ∀ f ∈ v.pool.queue.flowFiles, ∀ g ∈ made, f.id ≠ g.id := by decide +kernel
  refine ⟨by decide +kernel, by decide +kernel, ?_⟩
  clear_value w events
  obtain ⟨hapart, -, hmade⟩ := uuid_follows_number hqueue hsessions hspares
    fun i j _ hi _ hj heq => by
      rw [hsources] at heq
      exact Uuid.text_inj (Nat.lt_trans (huuids ▸ hi) (by decide))
        (Nat.lt_trans (huuids ▸ hj) (by decide)) heq
  have hsome : ∀ g ∈ made, g.uuid?.isSome := by
    intro g hg
    obtain ⟨c, hc, hg⟩ := List.mem_flatMap.1 hg
    exact hmade c hc g hg
  refine ⟨hsome, fun f hf g hg => ⟨hids f hf g hg, fun heq => ?_⟩⟩
  obtain ⟨u, hu⟩ := Option.isSome_iff_exists.1 (hsome g hg)
  exact hapart f g u u (.inl (.inl hf)) (.inr (hseen g hg)) (heq.trans hu) hu (hids f hf g hg) rfl

end ProcessorBench
