import ProcessorBench.Proofs.Session.Place

/-!
# Custody: every flow file is in exactly one place

Every event of a workspace keeps the account of its flow files, whatever a session does and also
when a call fails, as long as the supply has not gone through all numbers.

* `Custody.Accounted.receive` — a session takes up a flow file, from the queue or a new one.
* `Custody.Accounted.settle` — a session lets go of all that it held: at a commit to where the
  fates say, at a rollback to the queue or out of the workspace.
* `Custody.Accounted.step` — so every event keeps the invariant.
* `number_in_one_place` — after any events, a number that was given out is in exactly one place.
-/

set_option autoImplicit false

namespace ProcessorBench

namespace Custody

variable {first : UInt64} {c : Custody} {place : UInt64 → Option Place}

/-! ## Work within a session -/

section Scope

variable {n : Nat} {s s' : Scope}

/-- Versions, fates and counters have no part in where a flow file is. -/
theorem Accounted.amend (hc : Accounted first c place) (hs : c.workspace.scope? n = some s)
    (ha : s.Amends s') (hu : s.Unpublished s') : Accounted first (c.resume n s') place := by
  have hstill := hc.still hs
  refine hc.turn (Workspace.scope?_eq_some hs).1 { hstill with
    workspace := rfl
    queue := ?_, held := ?_, routed := ?_, made := ?_, keyed := ha.keyed, next := ?_
    removed := ?_ }
  · rw [ha.queue]
    exact hstill.queue
  · intro id
    rw [← hstill.held, ← Option.isSome_map (f := Holding.polled), ha.polled, Option.isSome_map]
  · unfold Session.routedTo
    rw [hu.routed]
    exact hstill.routed
  · intro id h hg hp
    have hpolled := ha.polled id
    rw [hg, Option.map_some, hp] at hpolled
    obtain ⟨g, hg', hgp⟩ := Option.map_eq_some_iff.1 hpolled.symm
    exact hstill.made id g hg' hgp
  · rw [ha.nextId]
    exact hstill.next
  · rw [hu.removedCount]
    exact hstill.removed

/-- The places after a number came to a place. -/
def arrive (place : UInt64 → Option Place) (id : UInt64) (p : Place) (i : UInt64) : Option Place :=
  if i = id then some p else place i

theorem arrive_eq_some {id i : UInt64} {p q : Place} (hne : q ≠ p) (hplace : place id ≠ some q) :
    arrive place id p i = some q ↔ place i = some q := by
  unfold arrive
  by_cases hi : i = id
  · subst hi
    simp only [if_true, Option.some.injEq]
    exact ⟨fun h => absurd h.symm hne, fun h => absurd h hplace⟩
  · rw [if_neg hi]

theorem arrive_isSome (id : UInt64) (p : Place) (i : UInt64) :
    (arrive place id p i).isSome ↔ i = id ∨ (place i).isSome := by
  unfold arrive
  by_cases hi : i = id <;> simp [hi]

/-- A session takes up a number that was new, or in the queue. -/
theorem Accounted.receive (hc : Accounted first c place) (hs : c.workspace.scope? n = some s)
    (id : UInt64) {issued : List (UInt64 × Option Nat)} (hu : s.Unpublished s')
    (hplace : ∀ p, p ≠ .queue → place id ≠ some p)
    (hissued : ∀ e ∈ c.issued, e ∈ issued)
    (hknown : ∀ i, i ∈ issued.map Prod.fst ↔ i = id ∨ i ∈ c.numbers)
    (hqueue : ∀ i, (s'.pool.queue.flowFiles.map (·.id)).count i =
      if i ≠ id ∧ place i = some .queue then 1 else 0)
    (hheld : ∀ i, (s'.session.holdings.get? i).isSome ↔
      i = id ∨ (s.session.holdings.get? i).isSome)
    (hmade : ∀ i h, s'.session.holdings.get? i = some h → h.polled = none → (i, some n) ∈ issued)
    (hkeyed : s'.session.Keyed)
    (hnumbered : issued.map Prod.fst = (List.range issued.length).map fun i => first + .ofNat i)
    (hnext : s'.pool.supply.nextId = first + .ofNat issued.length) :
    Accounted first { c.resume n s' with issued := issued } (arrive place id (.held n)) := by
  have hstill := hc.still hs
  have hother : ∀ p, p ≠ .queue → p ≠ .held n →
      ∀ i, arrive place id (.held n) i = some p ↔ place i = some p :=
    fun p hp hn i => arrive_eq_some hn (hplace p hp)
  refine hc.turn (Workspace.scope?_eq_some hs).1 { hstill with
    workspace := rfl
    place_ne := ?_, queue := ?_, held := ?_, routed := ?_, dropped := ?_, discarded := ?_
    issued := hissued, known := ?_, made := hmade, discards := ?_, keyed := hkeyed
    numbered := hnumbered, next := hnext, removed := ?_ }
  · intro p i hp hne
    refine hother p hp ?_ i
    rintro rfl
    exact hne rfl
  · intro i
    rw [hqueue i]
    unfold arrive
    by_cases hi : i = id <;> simp [hi]
  · intro i
    rw [hheld, hstill.held]
    unfold arrive
    by_cases hi : i = id <;> simp [hi]
  · intro relationship i
    unfold Session.routedTo
    rw [hu.routed]
    simp only [hother (.routed n relationship) (by simp) (by simp)]
    exact hstill.routed relationship i
  · intro i
    simp only [hother (.dropped n) (by simp) (by simp)]
    exact hstill.dropped i
  · intro i
    simp only [hother (.discarded n) (by simp) (by simp)]
    exact hstill.discarded i
  · intro i
    rw [arrive_isSome, hstill.known]
    exact (hknown i).symm
  · intro i hp
    rw [hother (.discarded n) (by simp) (by simp)] at hp
    exact hissued _ (hstill.discards i hp)
  · rw [hu.removedCount]
    exact hstill.removed

theorem Accounted.take (hc : Accounted first c place) (hs : c.workspace.scope? n = some s)
    {f : FlowFile} {rest : List FlowFile} (hq : s.pool.queue.flowFiles = f :: rest) :
    Accounted first (c.resume n (s.take f rest)) (arrive place f.id (.held n)) := by
  have hstill := hc.still hs
  have hcount := fun i => hstill.queue i
  simp only [hq, List.map_cons, List.count_cons, beq_iff_eq] at hcount
  have hplace : place f.id = some .queue := by
    have h := hcount f.id
    by_cases hp : place f.id = some .queue
    · exact hp
    · rw [if_pos rfl, if_neg hp] at h
      omega
  have hnone : s.session.holdings.get? f.id = none := by
    have h := hstill.held f.id
    rw [hplace] at h
    simpa using h
  have hget := Session.get?_holdPolled s.session f
  refine hc.receive hs f.id (Scope.Tends.take hq).unpublished ?_ (fun _ he => he) ?_ ?_ ?_ ?_
    (hstill.keyed.holdPolled f) hstill.numbered hstill.next
  · intro p hp
    rw [hplace]
    exact fun h => hp (Option.some.inj h).symm
  · intro i
    refine ⟨Or.inr, ?_⟩
    rintro (rfl | hi)
    · exact (hc.known f.id).1 (by rw [hplace]; rfl)
    · exact hi
  · intro i
    have h := hcount i
    by_cases hi : i = f.id
    · subst hi
      rw [hplace, if_pos rfl, if_pos rfl] at h
      rw [if_neg (fun e => e.1 rfl)]
      simp only [Scope.take]
      omega
    · rw [if_neg (fun e => hi e.symm)] at h
      simp only [Scope.take, ne_eq, hi, not_false_eq_true, true_and]
      exact h
  · intro i
    simp only [Scope.take, hget]
    by_cases hi : i = f.id <;> simp [hi]
  · intro i h hg hp
    simp only [Scope.take, hget, hnone] at hg
    by_cases hi : i = f.id
    · rw [if_pos hi] at hg
      cases hg
      cases hp
    · rw [if_neg hi] at hg
      exact hstill.made i h hg hp

theorem Accounted.create (hc : Accounted first c place) (hs : c.workspace.scope? n = some s)
    (hlt : c.issued.length < UInt64.size) (hcr : s.Creates s') :
    ∃ place', Accounted first
      { c.resume n s' with issued := c.issued ++ [(s.pool.supply.nextId, some n)] } place' := by
  have hstill := hc.still hs
  have hu := hcr.unpublished
  have hkeyed := hcr.keyed hstill.keyed
  have hfresh := hc.fresh hlt
  rw [← (Workspace.scope?_eq_some hs).2.2] at hfresh
  have hnone : s.session.holdings.get? s.pool.supply.nextId = none := by
    have h := hstill.held s.pool.supply.nextId
    rw [hfresh] at h
    simpa using h
  cases hcr with
  | intro f supply kind details numbered next =>
    have hget := Session.get?_hold s.session f
    rw [numbered, hnone] at hget
    refine ⟨_, hc.receive hs s.pool.supply.nextId hu ?_
      (fun e he => List.mem_append_left _ he) ?_ ?_ ?_ ?_ hkeyed ?_ ?_⟩
    · intro p _
      rw [hfresh]
      simp
    · intro i
      rw [List.map_append, List.mem_append, List.map_singleton, List.mem_singleton]
      exact or_comm
    · intro i
      have h := hstill.queue i
      by_cases hi : i = s.pool.supply.nextId
      · subst hi
        rw [hfresh, if_neg (by simp)] at h
        simpa using h
      · simpa [hi] using h
    · intro i
      have h := hget i
      show ((s.session.hold f).holdings.get? i).isSome ↔ _
      rw [h]
      by_cases hi : i = s.pool.supply.nextId <;> simp [hi]
    · intro i h hg hp
      have hgi : (s.session.hold f).holdings.get? i = some h := hg
      rw [hget] at hgi
      by_cases hi : i = s.pool.supply.nextId
      · subst hi
        exact List.mem_append_right _ (List.mem_singleton.2 rfl)
      · rw [if_neg hi] at hgi
        exact List.mem_append_left _ (hstill.made i h hgi hp)
    · rw [hstill.next]
      exact numbered_append hstill.numbered (some n)
    · rw [List.length_append, List.length_singleton, ← Supply.next_succ, ← hstill.next]
      exact next

/-! ## Ends of a unit of work -/

/-- The places after a session let go of all that it held. -/
def release (s : Session) (destination : Holding → Place) (place : UInt64 → Option Place)
    (id : UInt64) : Option Place :=
  match s.holdings.get? id with
  | some h => some (destination h)
  | none => place id

/-- A place has what was there, and what was released to it. -/
theorem count_release (hheld : ∀ id, (s.session.holdings.get? id).isSome ↔
      place id = some (.held n)) (destination : Holding → Place) {p : Place} (hp : p ≠ .held n)
    (id : UInt64) :
    (if place id = some p then 1 else 0) + (s.session.numbers fun h => destination h = p).count id =
      if release s.session destination place id = some p then 1 else 0 := by
  rw [Session.count_numbers]
  unfold release
  cases hg : s.session.holdings.get? id with
  | none => simp
  | some h =>
    have hid : place id = some (.held n) := (hheld id).1 (by rw [hg]; rfl)
    have hne : ¬Place.held n = p := fun e => hp e.symm
    simp only [hid, Option.some.injEq, hne, if_false, Option.any_some,
      decide_eq_true_eq, Nat.zero_add]

/-- A session lets go of all that it held. -/
theorem Accounted.settle {c' : Custody} (hc : Accounted first c place)
    (hs : c.workspace.scope? n = some s) (destination : Holding → Place)
    (hdestination : ∀ id h, s.session.holdings.get? id = some h → destination h = .queue ∨
      (destination h).session? = some n ∧ destination h ≠ .held n)
    (hmade : ∀ h, destination h = .discarded n → h.polled = none)
    (hwork : c'.workspace = c.workspace.resume n s') (hissued : c'.issued = c.issued)
    (hempty : s'.session.holdings = ∅) (hsupply : s'.pool.supply = s.pool.supply)
    (hqueue : s'.pool.queue.flowFiles.map (·.id) = s.pool.queue.flowFiles.map (·.id) ++
      s.session.numbers fun h => destination h = .queue)
    (hrouted : ∀ relationship, (s'.session.routedTo relationship).map (·.id) =
      (s.session.routedTo relationship).map (·.id) ++
        s.session.numbers fun h => destination h = .routed n relationship)
    (hdropped : ∀ m, c'.numbersAt (.dropped m) = c.numbersAt (.dropped m) ++
      if m = n then s.session.numbers fun h => destination h = .dropped n else [])
    (hdiscarded : ∀ m, c'.numbersAt (.discarded m) = c.numbersAt (.discarded m) ++
      if m = n then s.session.numbers fun h => destination h = .discarded n else [])
    (hremoved : s'.session.removedCount = s.session.removedCount +
      (s.session.numbers fun h => destination h = .dropped n).length) :
    Accounted first c' (release s.session destination place) := by
  have hstill := hc.still hs
  have hcount := fun {p : Place} (hp : p ≠ .held n) id =>
    count_release hstill.held destination hp id
  have hnumbers : c'.numbers = c.numbers := by unfold numbers; rw [hissued]
  refine hc.turn (Workspace.scope?_eq_some hs).1 ⟨hwork, ?_, ?_, ?_, ?_, ?_, ?_, ?_, ?_, ?_, ?_, ?_,
    ?_, ?_, ?_, ?_, ?_⟩
  · intro m hm
    rw [hdropped, if_neg hm, List.append_nil]
  · intro m hm
    rw [hdiscarded, if_neg hm, List.append_nil]
  · intro p id hp hne
    unfold release
    cases hg : s.session.holdings.get? id with
    | none => rfl
    | some h =>
      have hid : place id = some (.held n) := (hstill.held id).1 (by rw [hg]; rfl)
      simp only [hid, Option.some.injEq]
      constructor
      · rintro rfl
        rcases hdestination id h hg with hq | ⟨hn, -⟩
        · exact absurd hq hp
        · exact absurd hn hne
      · rintro rfl
        exact absurd rfl hne
  · intro id
    rw [hqueue, List.count_append, hstill.queue]
    exact hcount (by simp) id
  · intro id
    rw [hempty, Table.get?_empty]
    unfold release
    cases hg : s.session.holdings.get? id with
    | none =>
      simp only [← hstill.held, hg]
    | some h =>
      rcases hdestination id h hg with hq | ⟨-, hne⟩
      · simp [hq]
      · simpa using hne
  · intro relationship id
    rw [hrouted, List.count_append, hstill.routed]
    exact hcount (by simp) id
  · intro id
    rw [hdropped, if_pos rfl, List.count_append, hstill.dropped]
    exact hcount (by simp) id
  · intro id
    rw [hdiscarded, if_pos rfl, List.count_append, hstill.discarded]
    exact hcount (by simp) id
  · rw [hissued]
    exact fun _ he => he
  · intro id
    rw [hnumbers, ← hstill.known]
    unfold release
    cases hg : s.session.holdings.get? id with
    | none => rfl
    | some h =>
      have hid : place id = some (.held n) := (hstill.held id).1 (by rw [hg]; rfl)
      rw [hid, Option.isSome_some, Option.isSome_some]
  · intro id h hg
    rw [hempty] at hg
    cases hg
  · intro id hp
    rw [hissued]
    unfold release at hp
    cases hg : s.session.holdings.get? id with
    | none =>
      rw [hg] at hp
      exact hstill.discards id hp
    | some h =>
      rw [hg] at hp
      exact hstill.made id h hg (hmade h (Option.some.inj hp))
  · exact Session.Keyed.of_empty hempty
  · rw [hnumbers, hissued]
    exact hstill.numbered
  · rw [hsupply, hissued]
    exact hstill.next
  · rw [hremoved, hstill.removed, hdropped, if_pos rfl, List.length_append]

/-- A ledger of departures, seen from one session, after another departure of several numbers. -/
theorem departed_append (ledger : List (Nat × UInt64)) (n m : Nat) (ids : List UInt64) :
    ((ledger ++ ids.map fun id => (n, id)).filter fun e => e.1 = m).map Prod.snd =
      (ledger.filter fun e => e.1 = m).map Prod.snd ++ if m = n then ids else [] := by
  rw [List.filter_append, List.map_append, List.filter_map]
  by_cases hm : m = n
  · subst hm
    simp [Function.comp_def]
  · have hne : ¬n = m := fun e => hm e.symm
    simp [hm, hne, Function.comp_def]

/-- Where a commit puts a flow file. -/
def committed (n : Nat) (h : Holding) : Place :=
  match h.fate with
  | .undecided => .held n
  | .route relationship => .routed n relationship
  | .giveBack => .queue
  | .drop => .dropped n

/-- Where a rollback puts a flow file. -/
def rolledBack (n : Nat) (h : Holding) : Place :=
  if h.polled.isSome then .queue else .discarded n

theorem committed_eq_queue {h : Holding} : committed n h = .queue ↔ h.fate = .giveBack := by
  unfold committed
  cases h.fate <;> simp

theorem committed_eq_dropped {h : Holding} : committed n h = .dropped n ↔ h.fate = .drop := by
  unfold committed
  cases h.fate <;> simp

theorem committed_eq_routed {h : Holding} {relationship : Text} :
    committed n h = .routed n relationship ↔ h.fate = .route relationship := by
  unfold committed
  cases h.fate <;> simp

theorem committed_ne_discarded (h : Holding) : committed n h ≠ .discarded n := by
  unfold committed
  cases h.fate <;> simp

theorem rolledBack_eq_queue {h : Holding} : rolledBack n h = .queue ↔ h.polled.isSome := by
  unfold rolledBack
  cases h.polled <;> simp

theorem rolledBack_eq_discarded {h : Holding} :
    rolledBack n h = .discarded n ↔ h.polled.isNone := by
  unfold rolledBack
  cases h.polled <;> simp

theorem rolledBack_session (h : Holding) :
    rolledBack n h = .queue ∨ rolledBack n h = .discarded n := by
  unfold rolledBack
  cases h.polled <;> simp

theorem Accounted.publish (hc : Accounted first c place) (hs : c.workspace.scope? n = some s)
    (hdecided : s.session.undecided? = none) :
    Accounted first
      { c.resume n s.publish with
        dropped := c.dropped ++
          (s.session.numbers fun h => h.fate = .drop).map fun id => (n, id) }
      (release s.session (committed n) place) := by
  have hkeyed := (hc.still hs).keyed
  have hdropped : (s.session.numbers fun h => committed n h = .dropped n) =
      s.session.numbers fun h => h.fate = .drop := by
    simp only [committed_eq_dropped]
  have hdiscarded : (s.session.numbers fun h => committed n h = .discarded n) = [] :=
    Session.numbers_eq_nil fun h => by simpa using committed_ne_discarded h
  refine hc.settle hs (committed n) ?_ ?_ rfl rfl rfl rfl ?_ ?_ ?_ ?_ ?_
  · intro id h hg
    have hfate := Session.decided_of_undecided? hdecided hg
    unfold committed
    cases hf : h.fate with
    | undecided => exact absurd hf hfate
    | route relationship => exact .inr ⟨rfl, by simp⟩
    | giveBack => exact .inl rfl
    | drop => exact .inr ⟨rfl, by simp⟩
  · intro h hd
    exact absurd hd (committed_ne_discarded h)
  · show ((s.pool.queue.flowFiles ++ s.session.returning).map (·.id)) = _
    rw [List.map_append, Session.returning_ids hkeyed]
    simp only [committed_eq_queue]
  · intro relationship
    rw [Scope.routedTo_publish, List.map_append, List.map_map]
    simp only [committed_eq_routed]
    exact congrArg _ (Session.leaving_ids hkeyed relationship)
  · intro m
    rw [hdropped]
    exact departed_append c.dropped n m _
  · intro m
    rw [hdiscarded, ite_self, List.append_nil]
    rfl
  · rw [hdropped, ← Session.dropping_eq]
    rfl

theorem Accounted.rollback (hc : Accounted first c place) (hs : c.workspace.scope? n = some s) :
    Accounted first
      { c.resume n s.rollback with
        discarded := c.discarded ++
          (s.session.numbers fun h => h.polled.isNone).map fun id => (n, id) }
      (release s.session (rolledBack n) place) := by
  have hkeyed := (hc.still hs).keyed
  have helsewhere : ∀ p, p ≠ .queue → p ≠ .discarded n →
      (s.session.numbers fun h => rolledBack n h = p) = [] := by
    refine fun p hq hd => Session.numbers_eq_nil fun h => ?_
    rcases rolledBack_session (n := n) h with hr | hr
    · simpa [hr] using fun e => hq e.symm
    · simpa [hr] using fun e => hd e.symm
  refine hc.settle hs (rolledBack n) ?_ ?_ rfl rfl rfl rfl ?_ ?_ ?_ ?_ ?_
  · intro id h _
    rcases rolledBack_session (n := n) h with hr | hr
    · exact .inl hr
    · rw [hr]
      exact .inr ⟨rfl, by simp⟩
  · intro h hd
    exact Option.isNone_iff_eq_none.1 (rolledBack_eq_discarded.1 hd)
  · show ((s.pool.queue.flowFiles ++ s.session.taken).map (·.id)) = _
    rw [List.map_append, Session.taken_ids hkeyed]
    simp only [rolledBack_eq_queue, Bool.decide_eq_true]
  · intro relationship
    rw [helsewhere _ (by simp) (by simp), List.append_nil]
    rfl
  · intro m
    rw [helsewhere _ (by simp) (by simp), ite_self, List.append_nil]
    rfl
  · intro m
    simp only [rolledBack_eq_discarded, Bool.decide_eq_true]
    exact departed_append c.discarded n m _
  · rw [helsewhere _ (by simp) (by simp), List.length_nil, Nat.add_zero]
    rfl

/-! ## Every event keeps the invariant -/

theorem Accounted.works (hc : Accounted first c place) (hs : c.workspace.scope? n = some s)
    (hw : s.Works s') : ∃ place', Accounted first (c.resume n s') place' := by
  have hn := (Workspace.scope?_eq_some hs).1
  induction hw with
  | refl =>
    refine ⟨place, ?_⟩
    unfold resume
    rw [Workspace.resume_self hs]
    exact hc
  | @tail t t' _ ht ih =>
    obtain ⟨place', hc'⟩ := ih
    have hs' : (c.resume n t).workspace.scope? n = some t := Workspace.scope?_resume hn t
    have hresume : (c.resume n t).resume n t' = c.resume n t' := by
      unfold resume
      rw [Workspace.resume_resume]
    rw [← hresume]
    obtain ⟨f, rest, hq, rfl⟩ | ha := ht.take_or_amends (hc'.still hs').keyed
    · exact ⟨_, hc'.take hs' hq⟩
    · exact ⟨_, hc'.amend hs' ha ht.unpublished⟩

end Scope

/-- A session more, which holds nothing yet. -/
theorem Accounted.openSession (hc : Accounted first c place) :
    Accounted first { c with workspace := c.workspace.openSession.2 } place := by
  have hwork := Workspace.session_openSession c.workspace
  constructor
  · intro p id
    have h := hc.located p id
    cases p <;> simp only [numbersAt, hwork] at h ⊢ <;> exact h
  · exact hc.known
  · intro n id h hg hp
    rw [hwork] at hg
    exact hc.made n id h hg hp
  · exact hc.discarded
  · intro n
    rw [hwork]
    exact hc.keyed n
  · exact hc.numbered
  · exact hc.next
  · intro n
    rw [hwork]
    exact hc.removed n

/-- A flow file made for the queue gets the next number and goes there. -/
theorem Accounted.enqueue (hc : Accounted first c place) (hlt : c.issued.length < UInt64.size)
    (bytes : List UInt8) (attributes : Attributes) :
    Accounted first
      { c with
        workspace := c.workspace.enqueueBytes bytes attributes
        issued := c.issued ++ [(c.workspace.pool.supply.nextId, none)] }
      (arrive place c.workspace.pool.supply.nextId .queue) := by
  have hfresh := hc.fresh hlt
  obtain ⟨f, supply, henqueue, hid, hnext⟩ := c.workspace.enqueueBytes_eq bytes attributes
  have hother : ∀ p, p ≠ .queue → ∀ i,
      arrive place c.workspace.pool.supply.nextId .queue i = some p ↔ place i = some p :=
    fun p hp i => arrive_eq_some hp (by rw [hfresh]; simp)
  rw [henqueue]
  constructor
  · intro p i
    by_cases hp : p = .queue
    · subst hp
      have h := hc.located .queue i
      simp only [numbersAt, Queue.offer, List.map_append, List.count_append, List.map_singleton,
        List.count_singleton, beq_iff_eq, hid] at h ⊢
      rw [h]
      unfold arrive
      by_cases hi : i = c.workspace.pool.supply.nextId
      · simp [hi, hfresh]
      · have hi' : ¬c.workspace.pool.supply.nextId = i := fun e => hi e.symm
        simp [hi, hi']
    · simp only [hother p hp]
      rw [← hc.located]
      cases p with
      | queue => exact absurd rfl hp
      | _ => rfl
  · intro i
    rw [arrive_isSome, hc.known]
    unfold numbers
    rw [List.map_append, List.mem_append, List.map_singleton, List.mem_singleton]
    exact or_comm
  · intro n i h hg hp
    exact List.mem_append_left _ (hc.made n i h hg hp)
  · intro n i hp
    rw [hother (.discarded n) (by simp)] at hp
    exact List.mem_append_left _ (hc.discarded n i hp)
  · exact hc.keyed
  · unfold numbers
    rw [hc.next]
    exact numbered_append hc.numbered none
  · rw [List.length_append, List.length_singleton, ← Supply.next_succ, ← hc.next]
    exact hnext
  · exact hc.removed

theorem step_openSession (c : Custody) :
    c.step .openSession = { c with workspace := c.workspace.openSession.2 } := by
  simp [step, Workspace.issues, Workspace.departures, Workspace.handle, Workspace.openSession]

theorem step_enqueue (c : Custody) (bytes : List UInt8) (attributes : Attributes) :
    c.step (.enqueue bytes attributes) =
      { c with
        workspace := c.workspace.enqueueBytes bytes attributes
        issued := c.issued ++ [(c.workspace.pool.supply.nextId, none)] } := by
  obtain ⟨f, supply, henqueue, -, hnext⟩ := c.workspace.enqueueBytes_eq bytes attributes
  have hnew : (c.workspace.enqueueBytes bytes attributes).pool.supply.nextId ≠
      c.workspace.pool.supply.nextId := by
    rw [henqueue]
    simp only [hnext]
    exact Supply.succ_ne _
  simp [step, Workspace.issues, Workspace.departures, Workspace.handle, Workspace.Event.session?,
    hnew]

theorem step_call_of_none {n : Nat} (hs : c.workspace.scope? n = none) (op : Operation) :
    c.step (.call n op) = c := by
  simp [step, Workspace.issues, Workspace.departures, Workspace.handle, Workspace.perform, hs]

theorem step_call {n : Nat} {s : Scope} (hs : c.workspace.scope? n = some s) (op : Operation) :
    c.step (.call n op) =
      { workspace := c.workspace.resume n (op.run s).2
        issued := c.issued ++
          if (op.run s).2.pool.supply.nextId = s.pool.supply.nextId then []
          else [(s.pool.supply.nextId, some n)]
        dropped := c.dropped ++ (op.drops s).map fun id => (n, id)
        discarded := c.discarded ++ (op.discards s).map fun id => (n, id) } := by
  have hpool := (Workspace.scope?_eq_some hs).2.2
  simp [step, Workspace.issues, Workspace.departures, Workspace.handle, Workspace.perform, hs,
    Workspace.Event.session?, Workspace.resume, hpool]

/-- A call that does not end the unit of work moves nothing out of the workspace. -/
theorem step_call_of_unsettled {n : Nat} {s : Scope} (hs : c.workspace.scope? n = some s)
    {op : Operation} (hop : op.settles = false) :
    c.step (.call n op) =
      { c.resume n (op.run s).2 with
        issued := c.issued ++
          if (op.run s).2.pool.supply.nextId = s.pool.supply.nextId then []
          else [(s.pool.supply.nextId, some n)] } := by
  have hdrops : op.drops s = [] := by cases op <;> first | rfl | cases hop
  have hdiscards : op.discards s = [] := by cases op <;> first | rfl | cases hop
  rw [step_call hs, hdrops, hdiscards]
  simp [resume]

theorem Accounted.call (hc : Accounted first c place) {n : Nat} {s : Scope}
    (hs : c.workspace.scope? n = some s) {op : Operation} (hop : op.settles = false)
    (hclear : op ≠ .clearRouted) (hle : (c.step (.call n op)).issued.length ≤ UInt64.size) :
    ∃ place', Accounted first (c.step (.call n op)) place' := by
  rw [step_call_of_unsettled hs hop] at hle ⊢
  have heffect := op.effect hop s
  generalize (op.run s).2 = s' at heffect hle ⊢
  cases heffect with
  | works hw =>
    obtain ⟨place', hc'⟩ := hc.works hs hw
    have hnext : s'.pool.supply.nextId = s.pool.supply.nextId := by
      rw [(hc.still hs).next]
      exact hc'.next
    refine ⟨place', ?_⟩
    rw [if_pos hnext, List.append_nil]
    exact hc'
  | creates hcr =>
    have hnext : s'.pool.supply.nextId ≠ s.pool.supply.nextId := by
      cases hcr with
      | intro f supply kind details numbered next =>
        rw [next]
        exact Supply.succ_ne _
    rw [if_neg hnext] at hle ⊢
    rw [List.length_append] at hle
    exact hc.create hs hle hcr
  | forgets hop => exact absurd hop hclear

theorem Accounted.commit_call (hc : Accounted first c place) {n : Nat} {s : Scope}
    (hs : c.workspace.scope? n = some s) :
    ∃ place', Accounted first (c.step (.call n .commit)) place' := by
  cases hdecided : s.session.undecided? with
  | some id =>
    have hrun : Operation.run .commit s = (.error (.flowFile (.undecided id)), s) := by
      simp [Operation.run, Operation.run.answer, Scope.commit, hdecided, Except.map]
    refine ⟨place, ?_⟩
    rw [step_call hs, hrun]
    simp only [Workspace.resume_self hs, Operation.drops, Operation.discards, hdecided]
    simpa using hc
  | none =>
    have hrun : Operation.run .commit s = (.ok .done, s.publish) := by
      simp [Operation.run, Operation.run.answer, Scope.commit, hdecided, Except.map]
    have hstep : c.step (.call n .commit) =
        { c.resume n s.publish with
          dropped := c.dropped ++
            (s.session.numbers fun h => h.fate = .drop).map fun id => (n, id) } := by
      rw [step_call hs, hrun]
      simp [Operation.drops, Operation.discards, hdecided, resume, Scope.publish]
    rw [hstep]
    exact ⟨_, hc.publish hs hdecided⟩

theorem Accounted.rollback_call (hc : Accounted first c place) {n : Nat} {s : Scope}
    (hs : c.workspace.scope? n = some s) :
    ∃ place', Accounted first (c.step (.call n .rollback)) place' := by
  have hstep : c.step (.call n .rollback) =
      { c.resume n s.rollback with
        discarded := c.discarded ++
          (s.session.numbers fun h => h.polled.isNone).map fun id => (n, id) } := by
    rw [step_call hs]
    simp [Operation.run, Operation.drops, Operation.discards, resume, Scope.rollback]
  rw [hstep]
  exact ⟨_, hc.rollback hs⟩

/-- **Every event keeps the invariant.** -/
theorem Accounted.step (hc : Accounted first c place) {e : Workspace.Event}
    (he : e.remembers = true) (hle : (c.step e).issued.length ≤ UInt64.size) :
    ∃ place', Accounted first (c.step e) place' := by
  cases e with
  | openSession =>
    rw [step_openSession]
    exact ⟨_, hc.openSession⟩
  | enqueue bytes attributes =>
    rw [step_enqueue] at hle ⊢
    rw [List.length_append] at hle
    exact ⟨_, hc.enqueue hle bytes attributes⟩
  | call n op =>
    cases hs : c.workspace.scope? n with
    | none =>
      rw [step_call_of_none hs]
      exact ⟨_, hc⟩
    | some s =>
      cases hop : op.settles with
      | false =>
        have hclear : op ≠ .clearRouted := by
          rintro rfl
          cases he
        exact hc.call hs hop hclear hle
      | true =>
        cases op with
        | commit => exact hc.commit_call hs
        | rollback => exact hc.rollback_call hs
        | _ => cases hop

theorem Accounted.initial {w : Workspace} (hqueue : w.pool.queue.flowFiles = [])
    (hsessions : w.sessions = []) :
    Accounted w.pool.supply.nextId { workspace := w } fun _ => none := by
  have hsession : ∀ n, w.session n = {} := by
    intro n
    unfold Workspace.session
    rw [hsessions]
    rfl
  constructor
  · intro p id
    have hnothing : ({ workspace := w } : Custody).numbersAt p = [] := by
      cases p with
      | queue => simp [numbersAt, hqueue]
      | held n => simp only [numbersAt, hsession]; rfl
      | routed n relationship => simp only [numbersAt, hsession]; rfl
      | dropped n => rfl
      | discarded n => rfl
    rw [hnothing]
    rfl
  · intro id
    simp [numbers]
  · intro n id h hg
    rw [hsession] at hg
    cases hg
  · intro n id hp
    cases hp
  · intro n
    rw [hsession]
    exact Session.Keyed.of_empty rfl
  · rfl
  · simp
  · intro n
    rw [hsession]
    rfl

theorem length_issued_step (c : Custody) (e : Workspace.Event) :
    c.issued.length ≤ (c.step e).issued.length ∧
      (c.step e).issued.length ≤ c.issued.length + 1 := by
  unfold step Workspace.issues
  rw [List.length_append]
  split
  · simp
  · simp

theorem length_issued_foldl (c : Custody) (events : List Workspace.Event) :
    c.issued.length ≤ (events.foldl step c).issued.length ∧
      (events.foldl step c).issued.length ≤ c.issued.length + events.length := by
  induction events generalizing c with
  | nil => simp
  | cons e rest ih =>
    have hstep := length_issued_step c e
    have hrest := ih (c.step e)
    rw [List.foldl_cons, List.length_cons]
    omega

/-- The workspace is the one that the events leave. -/
theorem workspace_foldl (c : Custody) (events : List Workspace.Event) :
    (events.foldl step c).workspace = events.foldl Workspace.handle c.workspace := by
  induction events generalizing c with
  | nil => rfl
  | cons e rest ih => exact ih (c.step e)

/-- Whatever events happen, the invariant holds as long as no number is given out twice. -/
theorem Accounted.foldl (hc : Accounted first c place) (events : List Workspace.Event)
    (hremembers : ∀ e ∈ events, e.remembers = true)
    (hle : (events.foldl Custody.step c).issued.length ≤ UInt64.size) :
    ∃ place', Accounted first (events.foldl Custody.step c) place' := by
  induction events generalizing c place with
  | nil => exact ⟨place, hc⟩
  | cons e rest ih =>
    obtain ⟨place', hc'⟩ := hc.step (hremembers e List.mem_cons_self)
      (Nat.le_trans (length_issued_foldl (c.step e) rest).1 hle)
    exact ih hc' (fun d hd => hremembers d (List.mem_cons_of_mem e hd)) hle

theorem Accounted.numbers_nodup (hc : Accounted first c place)
    (hle : c.issued.length ≤ UInt64.size) : c.numbers.Nodup := by
  rw [hc.numbered]
  unfold List.Nodup
  rw [List.pairwise_map]
  refine List.Pairwise.imp_of_mem ?_ List.pairwise_lt_range
  intro i j hi hj hij heq
  rw [List.mem_range] at hi hj
  exact absurd (Supply.offset_inj (Nat.lt_of_lt_of_le hi hle) (Nat.lt_of_lt_of_le hj hle) heq)
    (Nat.ne_of_lt hij)

/-- Nothing is lost and nothing is there twice. -/
structure Conserved (c : Custody) : Prop where
  /-- No number was given out twice. -/
  nodup : c.numbers.Nodup
  /-- Each number is in exactly one place, and there exactly once. -/
  placed : ∀ id ∈ c.numbers, ∃ p, ∀ q, (c.numbersAt q).count id = if q = p then 1 else 0
  /-- What is in a place was given out. -/
  given : ∀ p, ∀ id ∈ c.numbersAt p, id ∈ c.numbers
  /-- A session discards what was made in it, and nothing else. -/
  origin : ∀ n, ∀ id ∈ c.numbersAt (.discarded n), (id, some n) ∈ c.issued
  /-- A session counts what its commits dropped. -/
  removed : ∀ n, (c.workspace.session n).removedCount = (c.numbersAt (.dropped n)).length

theorem Accounted.conserved (hc : Accounted first c place)
    (hle : c.issued.length ≤ UInt64.size) : c.Conserved where
  nodup := hc.numbers_nodup hle
  placed id hid := by
    obtain ⟨p, hp⟩ := Option.isSome_iff_exists.1 ((hc.known id).2 hid)
    refine ⟨p, fun q => ?_⟩
    rw [hc.located, hp]
    simp only [Option.some.injEq, eq_comm]
  given p id hid := by
    have hpos := List.count_pos_iff.2 hid
    rw [hc.located] at hpos
    refine (hc.known id).1 ?_
    split at hpos
    · rename_i hp
      rw [hp]
      rfl
    · omega
  origin n id hid := by
    have hpos := List.count_pos_iff.2 hid
    rw [hc.located] at hpos
    split at hpos
    · rename_i hp
      exact hc.discarded n id hp
    · omega
  removed := hc.removed

end Custody

/-- **No flow file is lost or doubled.**  Sessions start on an empty queue and do whatever they
want, in any order and also unsuccessfully, except to forget what they routed.  As long as fewer
than `2 ^ 64` numbers are given out, each of them is in exactly one place. -/
theorem number_in_one_place {w : Workspace} (hqueue : w.pool.queue.flowFiles = [])
    (hsessions : w.sessions = []) {events : List Workspace.Event}
    (hremembers : ∀ e ∈ events, e.remembers = true)
    (hlt : (Custody.after w events).issued.length < UInt64.size) :
    (Custody.after w events).Conserved := by
  obtain ⟨place, hplace⟩ :=
    (Custody.Accounted.initial hqueue hsessions).foldl events hremembers (Nat.le_of_lt hlt)
  exact hplace.conserved (Nat.le_of_lt hlt)

/-- Two sessions: the first one takes flow file 0, makes flow file 1 and rolls back; the second one
takes flow file 0 again and drops it. -/
theorem number_in_one_place_of_two_sessions :
    let events : List Workspace.Event :=
      [.openSession, .openSession, .enqueue [104, 105] ∅, .call 0 .poll, .call 0 .create,
        .call 0 .rollback, .call 1 (.pollUpTo 3), .call 1 (.drop ⟨0, ∅, default, 0⟩),
        .call 1 .commit]
    let c := Custody.after { pool := {} } events
    c.Conserved ∧ c.numbers = [0, 1] ∧ c.numbersAt (.dropped 1) = [0] ∧
      c.numbersAt (.discarded 0) = [1] := by
  intro events c
  have hlength : c.issued.length ≤ 0 + events.length := (Custody.length_issued_foldl _ events).2
  have hlt : c.issued.length < UInt64.size := Nat.lt_of_le_of_lt hlength (by decide)
  refine ⟨number_in_one_place rfl rfl (by decide) hlt, ?_, ?_, ?_⟩ <;> decide +kernel

end ProcessorBench
