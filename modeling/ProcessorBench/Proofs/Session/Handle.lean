import ProcessorBench.Proofs.Session.Unit

/-!
# Handles

Callers hold on to versions of flow files and name them in later calls.  A session looks a version
up by its number and turns the call away if it holds no flow file with the number, or if it gave
that flow file up.

* `Operation.names` — the flow files that an operation names.
* `Operation.run_rejected` — an operation that names a flow file which may not be used fails.
* `Session.final` — a flow file that was given up is rejected for the rest of the unit of work.
-/

set_option autoImplicit false

namespace ProcessorBench

open Program (Call recent)

/-- The number of the flow file that a fault is about. -/
def Error.FlowFileFault.id : Error.FlowFileFault → UInt64
  | notHeld id | alreadyRemoved id | undeclaredRelationship id _ | notFromQueue id
  | undecided id => id

/-- The flow files that an operation names. -/
def Operation.names : Operation → List FlowFile
  | createChild f | clone f | importBytes _ f | importStream _ f | write _ f | putAttribute f _ _
  | putAttributes f _ | removeAttribute f _ | read f | route f _ | giveBack f | drop f => [f]
  | routeAll fs _ => fs
  | _ => []

/-- How a call fails that names a flow file which may not be used: because of the flow file, unless
it misses its writer, which is seen first. -/
inductive Operation.Refuses : Operation → Except Error Answer → Prop
  | flowFile (op : Operation) (fault : Error.FlowFileFault) :
      Refuses op (.error (.flowFile fault))
  | noWriter (f : FlowFile) : Refuses (.write none f) (.error (.argument .noWriter))

namespace Session

variable {s : Session} {f g : FlowFile}

/-- Only the number of a version counts. -/
theorem held_congr (hid : f.id = g.id) : s.held f = s.held g := by
  unfold held
  rw [hid]

theorem held_of_none (hg : s.holdings.get? f.id = none) :
    s.held f = .error (.flowFile (.notHeld f.id)) := by
  unfold held
  rw [hg]

theorem held_of_drop {h : Holding} (hg : s.holdings.get? f.id = some h) (hd : h.fate = .drop) :
    s.held f = .error (.flowFile (.alreadyRemoved f.id)) := by
  unfold held
  rw [hg]
  exact if_pos hd

/-- A flow file that may not be used is rejected with its number. -/
theorem held_cases (s : Session) (f : FlowFile) :
    (∃ fault : Error.FlowFileFault, s.held f = .error (.flowFile fault) ∧ fault.id = f.id) ∨
      ∃ h, s.held f = .ok h := by
  cases hg : s.holdings.get? f.id with
  | none => exact .inl ⟨_, held_of_none hg, rfl⟩
  | some h =>
    by_cases hd : h.fate = .drop
    · exact .inl ⟨_, held_of_drop hg hd, rfl⟩
    · exact .inr ⟨h, held_eq_ok.2 ⟨hg, hd⟩⟩

/-- Where a number has the holding that it had, a version is looked up with the same outcome. -/
theorem held_of_get?_eq {s' : Session} (hg : s'.holdings.get? f.id = s.holdings.get? f.id) :
    s'.held f = s.held f := by
  unfold held
  rw [hg]

end Session

namespace Scope

variable {s : Scope} {f : FlowFile}

/-- An operation on a held flow file is turned away and does nothing, or it goes on. -/
theorem withHeld_cases {α : Type} (s : Scope) (f : FlowFile)
    (k : Holding → Except Error α × Scope) :
    (∃ fault : Error.FlowFileFault, fault.id = f.id ∧
      s.withHeld f k = (.error (.flowFile fault), s)) ∨
    ∃ h, s.session.held f = .ok h ∧ s.withHeld f k = k h := by
  unfold withHeld
  obtain ⟨fault, hheld, hid⟩ | ⟨h, hheld⟩ := s.session.held_cases f
  · rw [hheld]
    exact .inl ⟨fault, hid, rfl⟩
  · rw [hheld]
    exact .inr ⟨h, rfl, rfl⟩

/-- The flow file with the number can be routed. -/
def Routable (s : Scope) (relationship : Text) (id : UInt64) : Prop :=
  s.pool.declares relationship = true ∧
    ∃ h, s.session.holdings.get? id = some h ∧ h.fate ≠ .drop

/-- A routing is turned away with the number of the flow file, or it decides its fate. -/
theorem route_cases (s : Scope) (f : FlowFile) (relationship : Text) :
    (∃ fault : Error.FlowFileFault, fault.id = f.id ∧ ¬s.Routable relationship f.id ∧
      s.route f relationship = (.error (.flowFile fault), s)) ∨
    ∃ h, s.session.held f = .ok h ∧ s.Routable relationship f.id ∧
      s.route f relationship =
        (.ok (), { s with session := s.session.assign h (.route relationship) }) := by
  unfold route withHeld
  obtain ⟨fault, hheld, hid⟩ | ⟨h, hheld⟩ := s.session.held_cases f
  · rw [hheld]
    refine .inl ⟨fault, hid, fun hr => ?_, rfl⟩
    obtain ⟨-, h, hg⟩ := hr
    rw [Session.held_eq_ok.2 hg] at hheld
    cases hheld
  · rw [hheld]
    by_cases hd : s.pool.declares relationship = true
    · exact .inr ⟨h, rfl, ⟨hd, h, Session.held_eq_ok.1 hheld⟩, if_pos hd⟩
    · exact .inl ⟨.undeclaredRelationship f.id relationship, rfl, fun hr => hd hr.1, if_neg hd⟩

/-- Of flow files in a row one that may not be used is in the way of them all. -/
theorem routeAll_rejected {fs : List FlowFile} (relationship : Text) (hs : s.session.Keyed)
    (hf : f ∈ fs) {e : Error} (hheld : s.session.held f = .error e) :
    ∃ fault : Error.FlowFileFault, (s.routeAll fs relationship).1 = .error (.flowFile fault) := by
  induction fs generalizing s with
  | nil => cases hf
  | cons g rest ih =>
    unfold routeAll
    obtain ⟨fault, -, -, hroute⟩ | ⟨h, hg, ⟨hd, -⟩, hroute⟩ := s.route_cases g relationship
    · rw [hroute]
      exact ⟨fault, rfl⟩
    · rw [hroute]
      have hne : f.id ≠ g.id := by
        intro hid
        rw [Session.held_congr hid, hg] at hheld
        cases hheld
      have hcurrent : h.current.id = g.id := hs.current _ h (Session.held_eq_ok.1 hg).1
      have hrest : f ∈ rest := (List.mem_cons.1 hf).resolve_left fun heq => hne (heq ▸ rfl)
      have hkeyed := (Scope.Tends.decide (.route relationship) hg hd).keyed hs
      -- the routing of another flow file does not change how this one is looked up
      refine ih hkeyed hrest ?_
      rw [← hheld]
      refine Session.held_of_get?_eq ?_
      rw [Session.get?_assign, hcurrent, if_neg hne]

end Scope

/-- **A flow file that may not be used is rejected**, by whatever operation it is named. -/
theorem Operation.run_rejected {op : Operation} {s : Scope} (hs : s.session.Keyed) {f : FlowFile}
    (hf : f ∈ op.names) {e : Error} (hheld : s.session.held f = .error e) :
    op.Refuses (op.run s).1 := by
  have hsingle {α : Type} (a : α → Answer) (k : Holding → Except Error α × Scope) :
      op.Refuses (run.answer a (s.withHeld f k)).1 := by
    obtain ⟨fault, -, hrun⟩ | ⟨h, hok, -⟩ := Scope.withHeld_cases s f k
    · rw [hrun]
      exact .flowFile op fault
    · rw [hok] at hheld
      cases hheld
  cases op with
  | create | poll | pollUpTo _ | adjustCounter _ _ _ | commit | rollback | clearRouted => cases hf
  | routeAll fs relationship =>
    have hfs : f ∈ fs := hf
    obtain ⟨fault, hrun⟩ := Scope.routeAll_rejected relationship hs hfs hheld
    show Refuses _ ((s.routeAll fs relationship).1.map _)
    rw [hrun]
    exact .flowFile _ fault
  | write writer g =>
    obtain rfl := List.mem_singleton.1 hf
    cases writer with
    | none => exact .noWriter f
    | some writer => exact hsingle _ _
  | _ =>
    obtain rfl := List.mem_singleton.1 hf
    exact hsingle _ _

/-! ## Flow files that were given up -/

/-- The flow file with the number was given up. -/
def Session.Gone (s : Session) (id : UInt64) : Prop :=
  ∃ h, s.holdings.get? id = some h ∧ h.fate = .drop

theorem Session.Gone.held {s : Session} {id : UInt64} (h : s.Gone id) {f : FlowFile}
    (hf : f.id = id) : s.held f = .error (.flowFile (.alreadyRemoved id)) := by
  subst hf
  obtain ⟨g, hg, hfate⟩ := h
  exact held_of_drop hg hfate

namespace Scope

variable {s s' : Scope} {id : UInt64}

/-- What was given up is not changed any more. -/
theorem Tends.gone (hs : s.session.Keyed) (h : s.session.Gone id) (ht : s.Tends s') :
    s'.session.Gone id := by
  obtain ⟨g, hg, hfate⟩ := h
  -- every other change is about a flow file that was not given up
  have hne : ∀ {f : FlowFile} {h : Holding}, s.session.held f = .ok h → id ≠ h.current.id := by
    rintro f h hheld rfl
    obtain ⟨hget, hkept, -⟩ := hs.open_of_held hheld
    rw [hget] at hg
    exact hkept (Option.some.inj hg ▸ hfate)
  cases ht with
  | @take f rest waits =>
    unfold Session.Gone Scope.take
    rw [Session.get?_holdPolled]
    by_cases hid : id = f.id
    · subst hid
      rw [if_pos rfl, hg]
      exact ⟨_, rfl, hfate⟩
    · rw [if_neg hid]
      exact ⟨g, hg, hfate⟩
  | @content f h bytes held =>
    refine ⟨g, Eq.trans ?_ hg, hfate⟩
    exact (Session.get?_revise _ h _ id).trans (if_neg (hne held))
  | @attributes f h attributes details held =>
    refine ⟨g, Eq.trans ?_ hg, hfate⟩
    exact (Session.get?_revise _ h _ id).trans (if_neg (hne held))
  | @decide f h fate held allowed =>
    refine ⟨g, Eq.trans ?_ hg, hfate⟩
    exact (Session.get?_assign _ h fate id).trans (if_neg (hne held))
  | @drop f h held =>
    refine ⟨g, Eq.trans ?_ hg, hfate⟩
    exact (Session.get?_assign _ h .drop id).trans (if_neg (hne held))
  | count name delta immediate =>
    unfold adjustCounter
    split <;> exact ⟨g, hg, hfate⟩

theorem Works.gone (hs : s.session.Keyed) (h : s.session.Gone id) (hw : s.Works s') :
    s'.session.Gone id := by
  induction hw with
  | refl => exact h
  | tail hw ht ih => exact ht.gone (Works.keyed hs hw) ih

theorem Creates.gone (h : s.session.Gone id) (hc : s.Creates s') : s'.session.Gone id := by
  obtain ⟨g, hg, hfate⟩ := h
  cases hc with
  | intro f supply kind details numbered next =>
    refine ⟨g, (Session.get?_hold s.session f id).trans ?_, hfate⟩
    by_cases hid : id = f.id
    · subst hid
      rw [if_pos rfl, hg]
      rfl
    · rw [if_neg hid, hg]

end Scope

/-- What was given up stays given up until the end of the unit of work. -/
theorem Operation.run_gone {op : Operation} (hop : op.settles = false) {s : Scope}
    (hs : s.session.Keyed) {id : UInt64} (h : s.session.Gone id) :
    (op.run s).2.session.Gone id := by
  have heffect := op.effect hop s
  generalize (op.run s).2 = s' at heffect ⊢
  cases heffect with
  | works hw => exact hw.gone hs h
  | creates hc => exact hc.gone h
  | forgets _ => exact h

/-- A call that gives up a flow file leaves it so. -/
theorem Operation.run_drop_gone {s : Scope} (hs : s.session.Keyed) {f : FlowFile} {a : Answer}
    (ha : ((drop f).run s).1 = .ok a) : ((drop f).run s).2.session.Gone f.id := by
  simp only [run, run.answer, Scope.drop] at ha ⊢
  obtain ⟨fault, -, hrun⟩ | ⟨h, hheld, hrun⟩ := Scope.withHeld_cases s f fun h =>
    (.ok (), { s with session := (s.session.assign h .drop).record .drop f.id })
  · rw [hrun] at ha
    cases ha
  · rw [hrun]
    have hcurrent := hs.current _ h (Session.held_eq_ok.1 hheld).1
    refine ⟨{ h with fate := .drop }, (Session.get?_assign _ h .drop f.id).trans ?_, rfl⟩
    rw [hcurrent, if_pos rfl]

/-- What was given up in a unit of work stays given up in it, and every later call that names it is
turned away. -/
structure Session.Final (s : Session) (calls : List Call) : Prop where
  keyed : s.Keyed
  gone : ∀ before f a later, calls = before ++ (.drop f, .ok a) :: later → s.Gone f.id
  refused : ∀ before f a later, calls = before ++ (.drop f, .ok a) :: later →
    ∀ e ∈ later, ∀ g ∈ e.1.names, g.id = f.id → e.1.Refuses e.2

/-- One more call is the one in question, or comes later. -/
theorem eq_or_later {α : Type} {l before later : List α} {d e : α}
    (h : l ++ [e] = before ++ d :: later) :
    (later = [] ∧ e = d) ∨ ∃ later', later = later' ++ [e] ∧ l = before ++ d :: later' := by
  obtain rfl | ⟨later', e', rfl⟩ := later.eq_nil_or_concat
  · exact .inl ⟨rfl, by simpa using (List.append_inj' h rfl).2⟩
  · rw [List.concat_eq_append, ← List.cons_append, ← List.append_assoc] at h
    obtain ⟨hl, he⟩ := List.append_inj' h rfl
    obtain rfl : e = e' := by simpa using he
    exact .inr ⟨later', List.concat_eq_append, hl⟩

namespace Session

theorem Final.run {s : Scope} {calls : List Call} (h : s.session.Final calls) {op : Operation}
    (hop : op.settles = false) :
    (op.run s).2.session.Final (calls ++ [(op, (op.run s).1)]) where
  keyed := op.run_keyed h.keyed
  gone before f a later hcalls := by
    obtain ⟨-, heq⟩ | ⟨later', -, hbefore⟩ := eq_or_later hcalls
    · obtain ⟨rfl, ha⟩ := Prod.mk.inj heq
      exact Operation.run_drop_gone h.keyed ha
    · exact Operation.run_gone hop h.keyed (h.gone before f a later' hbefore)
  refused before f a later hcalls e he g hg hid := by
    obtain ⟨rfl, -⟩ | ⟨later', rfl, hbefore⟩ := eq_or_later hcalls
    · cases he
    · rcases List.mem_append.1 he with he | he
      · exact h.refused before f a later' hbefore e he g hg hid
      · obtain rfl := List.mem_singleton.1 he
        exact Operation.run_rejected h.keyed hg
          ((h.gone before f a later' hbefore).held hid)

theorem final : Invariant Final where
  idle s hs _ _ := ⟨.of_empty hs, by simp, by simp⟩
  failed s calls e h := by
    refine ⟨h.keyed, fun before f a later hcalls => ?_, fun before f a later hcalls => ?_⟩
    · obtain ⟨-, heq⟩ | ⟨later', -, hbefore⟩ := eq_or_later hcalls
      · cases heq
      · exact h.gone before f a later' hbefore
    · obtain ⟨-, heq⟩ | ⟨later', rfl, hbefore⟩ := eq_or_later hcalls
      · cases heq
      · intro d hd g hg hid
        rcases List.mem_append.1 hd with hd | hd
        · exact h.refused before f a later' hbefore d hd g hg hid
        · obtain rfl := List.mem_singleton.1 hd
          cases hg
  run _ _ _ hop h := h.run hop

end Session

end ProcessorBench
