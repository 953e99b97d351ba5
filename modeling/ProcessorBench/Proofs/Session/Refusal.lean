import ProcessorBench.Proofs.Session.Handle

/-!
# Rejected operations

An operation on one flow file looks at everything that could be in its way before it does anything.
What can be in its way is told by the register of the session: the flow file is not there, it is
given up, the relationship does not exist, or there is nothing to give back.

* `Operation.Fails` — how an operation fails.  It fails in no other way
  (`Operation.run_eq_error_iff`), and then it does nothing (`Operation.Fails.run`).
* `Scope.routeAll_outcome` — flow files that are routed in a row are routed up to the first one
  that is rejected.
* `Session.rejected_changes_nothing` — the same for every session that operations lead to.
-/

set_option autoImplicit false

namespace ProcessorBench

/-! ## What is in the way of an operation -/

/-- The flow file that an operation on one flow file names. -/
def Operation.subject? : Operation → Option FlowFile
  | createChild f | clone f | importBytes _ f | importStream _ f | write _ f | putAttribute f _ _
  | putAttributes f _ | removeAttribute f _ | read f | route f _ | giveBack f | drop f => some f
  | _ => none

/-- What bars an operation from the flow file that it names. -/
inductive Operation.Barred (s : Scope) (f : FlowFile) : Operation → Error.FlowFileFault → Prop
  | notHeld (op : Operation) (missing : f.id ∉ s.session.register.current.keys) :
      Barred s f op (.notHeld f.id)
  | alreadyRemoved (op : Operation) (removed : f.id ∈ s.session.register.removals.keys) :
      Barred s f op (.alreadyRemoved f.id)
  | undeclaredRelationship (relationship : Text) (isOpen : s.session.register.Open f.id)
      (undeclared : relationship ∉ s.pool.relationships) :
      Barred s f (.route f relationship) (.undeclaredRelationship f.id relationship)
  | notFromQueue (isOpen : s.session.register.Open f.id)
      (made : f.id ∉ s.session.register.original.keys) :
      Barred s f (.giveBack f) (.notFromQueue f.id)

/-- How an operation on the flow file `f` fails. -/
inductive Operation.Fails (s : Scope) (f : FlowFile) : Operation → Error → Prop
  /-- That there is no writer is seen first. -/
  | noWriter : Fails s f (.write none f) (.argument .noWriter)
  | barred {op : Operation} {fault : Error.FlowFileFault} (hasWriter : op ≠ .write none f)
      (barred : op.Barred s f fault) : Fails s f op (.flowFile fault)
  | brokenStream (isOpen : s.session.register.Open f.id) :
      Fails s f (.importStream .broken f) (.read (.importing f.id))
  /-- What the writer raises is passed on. -/
  | writer {writer : Writer} {v : FlowFile} {e : Error} (isOpen : s.session.register.Open f.id)
      (latest : s.session.register.current.get? f.id = some v)
      (raised : writer v.content.bytes = .error e) : Fails s f (.write (some writer) f) e

namespace Session

variable {s : Session} {f : FlowFile}

/-- What is open has a holding that is not given up. -/
theorem open_iff {id : UInt64} :
    s.register.Open id ↔ ∃ h, s.holdings.get? id = some h ∧ h.fate ≠ .drop := by
  unfold Register.Open
  simp only [Table.mem_keys, register, Table.get?_filterMap]
  cases s.holdings.get? id with
  | none => simp
  | some h => by_cases hd : h.fate = .drop <;> simp [hd]

theorem held_ok_iff_open : (∃ h, s.held f = .ok h) ↔ s.register.Open f.id := by
  simp only [held_eq_ok, open_iff]

theorem current_of_held {h : Holding} (hheld : s.held f = .ok h) :
    s.register.current.get? f.id = some h.current := by
  simp [register, (held_eq_ok.1 hheld).1]

theorem mem_original_of_held {h : Holding} (hheld : s.held f = .ok h) :
    f.id ∈ s.register.original.keys ↔ h.polled.isSome = true := by
  rw [Table.mem_keys]
  simp [register, (held_eq_ok.1 hheld).1]

/-- A version that cannot be looked up is not there or given up. -/
theorem held_error_cases {e : Error} (hheld : s.held f = .error e) :
    (e = .flowFile (.notHeld f.id) ∧ f.id ∉ s.register.current.keys) ∨
      (e = .flowFile (.alreadyRemoved f.id) ∧ f.id ∈ s.register.removals.keys) := by
  unfold held at hheld
  simp only [Table.mem_keys, register, Table.get?_filterMap]
  cases hg : s.holdings.get? f.id with
  | none =>
    rw [hg] at hheld
    cases hheld
    exact .inl ⟨rfl, by simp⟩
  | some h =>
    rw [hg] at hheld
    by_cases hd : h.fate = .drop
    · simp only [hd, if_true] at hheld
      cases hheld
      exact .inr ⟨rfl, by simp [hd]⟩
    · simp only [hd, if_false] at hheld
      cases hheld

theorem held_of_not_mem (h : f.id ∉ s.register.current.keys) :
    s.held f = .error (.flowFile (.notHeld f.id)) := by
  refine held_of_none ?_
  rw [Table.mem_keys, register, Table.get?_filterMap, Option.not_isSome_iff_eq_none,
    Option.bind_eq_none_iff] at h
  exact Option.eq_none_iff_forall_ne_some.2 fun g hg =>
    Option.some_ne_none g.current (h g hg)

theorem held_of_removed (h : f.id ∈ s.register.removals.keys) :
    s.held f = .error (.flowFile (.alreadyRemoved f.id)) := by
  rw [Table.mem_keys, register, Table.get?_filterMap, Option.isSome_iff_exists] at h
  obtain ⟨u, hu⟩ := h
  obtain ⟨g, hg, hd⟩ := Option.bind_eq_some_iff.1 hu
  by_cases hdrop : g.fate = .drop
  · exact held_of_drop hg hdrop
  · rw [if_neg hdrop] at hd
    cases hd

end Session

/-! ## One flow file -/

namespace Operation

variable {op : Operation} {s : Scope} {f : FlowFile}

/-- An operation on a flow file that cannot be looked up fails and does nothing. -/
theorem run_of_held_error {e : Error} (hsubject : op.subject? = some f)
    (hwriter : op ≠ .write none f) (hheld : s.session.held f = .error e) :
    op.run s = (.error e, s) := by
  cases op with
  | write writer g =>
    obtain rfl := Option.some.inj hsubject
    cases writer with
    | none => exact absurd rfl hwriter
    | some writer => simp only [run, run.answer, Scope.write, Scope.withHeld, hheld]; rfl
  | create | poll | pollUpTo | routeAll | adjustCounter | commit | rollback | clearRouted =>
    cases hsubject
  | _ =>
    obtain rfl := Option.some.inj hsubject
    simp only [run, run.answer, Scope.createChild, Scope.clone, Scope.importBytes,
      Scope.importStream, Scope.putAttribute, Scope.putAttributes, Scope.removeAttribute,
      Scope.read, Scope.route, Scope.giveBack, Scope.drop, Scope.withHeld, hheld]
    rfl

/-- An operation that fails in one of these ways does nothing. -/
theorem Fails.run {e : Error} (hsubject : op.subject? = some f) (h : op.Fails s f e) :
    op.run s = (.error e, s) := by
  cases h with
  | noWriter => rfl
  | barred hasWriter barred =>
    cases barred with
    | notHeld _ missing =>
      exact run_of_held_error hsubject hasWriter (Session.held_of_not_mem missing)
    | alreadyRemoved _ removed =>
      exact run_of_held_error hsubject hasWriter (Session.held_of_removed removed)
    | undeclaredRelationship relationship isOpen undeclared =>
      obtain ⟨h, hheld⟩ := Session.held_ok_iff_open.2 isOpen
      have hdeclares : ¬s.pool.declares relationship = true := fun hd =>
        undeclared (List.contains_iff_mem.1 hd)
      simp only [Operation.run, run.answer, Scope.route, Scope.withHeld, hheld, if_neg hdeclares]
      rfl
    | notFromQueue isOpen made =>
      obtain ⟨h, hheld⟩ := Session.held_ok_iff_open.2 isOpen
      have hpolled : ¬h.polled.isSome = true := fun hp =>
        made ((Session.mem_original_of_held hheld).2 hp)
      simp only [Operation.run, run.answer, Scope.giveBack, Scope.withHeld, hheld, if_neg hpolled]
      rfl
  | brokenStream isOpen =>
    obtain ⟨h, hheld⟩ := Session.held_ok_iff_open.2 isOpen
    simp only [Operation.run, run.answer, Scope.importStream, Scope.withHeld, hheld]
    rfl
  | @writer writer v e isOpen latest raised =>
    obtain ⟨h, hheld⟩ := Session.held_ok_iff_open.2 isOpen
    obtain rfl : h.current = v :=
      Option.some.inj ((Session.current_of_held hheld).symm.trans latest)
    simp only [Operation.run, run.answer, Scope.write, Scope.withHeld, hheld, raised]
    rfl

/-- An operation on a flow file fails because it cannot be looked up, or goes on with its
holding. -/
theorem fails_of_withHeld {α : Type} {a : α → Answer} {k : Holding → Except Error α × Scope}
    {e : Error} (hrun : op.run s = run.answer a (s.withHeld f k)) (hwriter : op ≠ .write none f)
    (hk : ∀ h, s.session.held f = .ok h → (k h).1 = .error e → op.Fails s f e)
    (he : (op.run s).1 = .error e) : op.Fails s f e := by
  rw [hrun] at he
  unfold Scope.withHeld at he
  cases hheld : s.session.held f with
  | error e' =>
    rw [hheld] at he
    cases he
    obtain ⟨rfl, hbars⟩ | ⟨rfl, hbars⟩ := Session.held_error_cases hheld
    · exact .barred hwriter (.notHeld op hbars)
    · exact .barred hwriter (.alreadyRemoved op hbars)
  | ok h =>
    rw [hheld] at he
    refine hk h hheld ?_
    simp only [run.answer] at he
    cases hr : (k h).1 with
    | error e' =>
      rw [hr] at he
      cases he
      rfl
    | ok x =>
      rw [hr] at he
      cases he

/-- An operation on one flow file fails in no other way. -/
theorem fails_of_run {e : Error} (hsubject : op.subject? = some f)
    (he : (op.run s).1 = .error e) : op.Fails s f e := by
  cases op with
  | create | poll | pollUpTo | routeAll | adjustCounter | commit | rollback | clearRouted =>
    cases hsubject
  | importStream stream g =>
    obtain rfl := Option.some.inj hsubject
    refine fails_of_withHeld rfl (by simp) (fun h hheld hk => ?_) he
    cases stream with
    | broken =>
      cases hk
      exact .brokenStream (Session.held_ok_iff_open.1 ⟨h, hheld⟩)
    | readable bytes =>
      have himport : (s.importBytes bytes g).1 = .error e := hk
      rw [Scope.importBytes_of_held hheld] at himport
      cases himport
  | write writer g =>
    obtain rfl := Option.some.inj hsubject
    cases writer with
    | none =>
      cases he
      exact .noWriter
    | some writer =>
      refine fails_of_withHeld rfl (by simp) (fun h hheld hk => ?_) he
      refine .writer (Session.held_ok_iff_open.1 ⟨h, hheld⟩) (Session.current_of_held hheld) ?_
      cases hw : writer h.current.content.bytes with
      | error e' =>
        rw [hw] at hk
        cases hk
        rfl
      | ok bytes =>
        rw [hw] at hk
        cases hk
  | putAttributes g attributes =>
    obtain rfl := Option.some.inj hsubject
    refine fails_of_withHeld rfl (by simp) (fun h hheld hk => ?_) he
    split at hk <;> cases hk
  | removeAttribute g key =>
    obtain rfl := Option.some.inj hsubject
    refine fails_of_withHeld rfl (by simp) (fun h hheld hk => ?_) he
    split at hk <;> cases hk
  | route g relationship =>
    obtain rfl := Option.some.inj hsubject
    refine fails_of_withHeld rfl (by simp) (fun h hheld hk => ?_) he
    split at hk
    · cases hk
    · rename_i hdeclares
      cases hk
      exact .barred (by simp) (.undeclaredRelationship relationship
        (Session.held_ok_iff_open.1 ⟨h, hheld⟩) fun hm => hdeclares (List.contains_iff_mem.2 hm))
  | giveBack g =>
    obtain rfl := Option.some.inj hsubject
    refine fails_of_withHeld rfl (by simp) (fun h hheld hk => ?_) he
    split at hk
    · cases hk
    · rename_i hpolled
      cases hk
      exact .barred (by simp) (.notFromQueue (Session.held_ok_iff_open.1 ⟨h, hheld⟩)
        fun hm => hpolled ((Session.mem_original_of_held hheld).1 hm))
  | _ =>
    obtain rfl := Option.some.inj hsubject
    exact fails_of_withHeld rfl (by simp) (fun h hheld hk => by cases hk) he

/-- **An operation on one flow file fails exactly for these reasons.** -/
theorem run_eq_error_iff (hsubject : op.subject? = some f) (e : Error) :
    (op.run s).1 = .error e ↔ op.Fails s f e :=
  ⟨fails_of_run hsubject, fun h => by rw [h.run hsubject]⟩

/-- Unless it writes, an operation fails because of the flow file only if it is barred from it. -/
theorem Fails.is_barred {e : Error} (h : op.Fails s f e) (hwrite : ∀ writer, op ≠ .write writer f)
    (hkind : e.kind = .flowFileHandling) :
    ∃ fault, e = .flowFile fault ∧ op.Barred s f fault := by
  cases h with
  | noWriter => exact absurd rfl (hwrite none)
  | barred hasWriter barred => exact ⟨_, rfl, barred⟩
  | brokenStream isOpen => cases hkind
  | @writer writer v e isOpen latest raised => exact absurd rfl (hwrite (some writer))

end Operation

/-! ## Flow files in a row -/

/-- The flow files were routed one after the other, and nothing else happened. -/
structure Scope.Routed (s t : Scope) (fs : List FlowFile) (relationship : Text) : Prop where
  register : t.session.register =
    fs.foldl (fun reg f => reg.route f.id relationship) s.session.register
  session : t.session = { s.session with holdings := t.session.holdings }
  pool : t.pool = s.pool

/-- Whether a flow file can be routed is told by what is there and what was given up. -/
theorem Operation.Barred.of_register {s t : Scope} {f : FlowFile} {relationship : Text}
    {fault : Error.FlowFileFault} (h : (route f relationship).Barred s f fault)
    (hcurrent : t.session.register.current = s.session.register.current)
    (hremovals : t.session.register.removals = s.session.register.removals)
    (hpool : t.pool = s.pool) : (route f relationship).Barred t f fault := by
  cases h with
  | notHeld _ missing => exact .notHeld _ (hcurrent ▸ missing)
  | alreadyRemoved _ removed => exact .alreadyRemoved _ (hremovals ▸ removed)
  | undeclaredRelationship _ isOpen undeclared =>
    refine .undeclaredRelationship _ ?_ (hpool ▸ undeclared)
    exact ⟨hcurrent ▸ isOpen.1, hremovals ▸ isOpen.2⟩

namespace Scope

variable {s : Scope} {relationship : Text}

/-- A routing goes through, or something is in its way. -/
theorem route_outcome (hs : s.session.Keyed) (f : FlowFile) (relationship : Text) :
    ((∀ fault, ¬(Operation.route f relationship).Barred s f fault) ∧
      ∃ t, s.route f relationship = (.ok (), t) ∧ t.session.Keyed ∧
        s.Routed t [f] relationship) ∨
    ∃ fault, (Operation.route f relationship).Barred s f fault ∧
      s.route f relationship = (.error (.flowFile fault), s) := by
  obtain ⟨fault, -, -, hroute⟩ | ⟨h, hheld, ⟨hdeclared, -⟩, hroute⟩ := s.route_cases f relationship
  · have hrun : ((Operation.route f relationship).run s).1 = .error (.flowFile fault) := by
      rw [Operation.run, hroute]
      rfl
    obtain ⟨_, heq, hbarred⟩ := (Operation.fails_of_run rfl hrun).is_barred (by simp) rfl
    cases heq
    exact .inr ⟨fault, hbarred, hroute⟩
  · refine .inl ⟨fun fault hbarred => ?_, _, hroute,
      (Tends.decide (.route relationship) hheld hdeclared).keyed hs, ?_, rfl, rfl⟩
    · have hrun := Operation.Fails.run (s := s) rfl (.barred (by simp) hbarred)
      rw [Operation.run, hroute] at hrun
      cases congrArg Prod.fst hrun
    · obtain ⟨hg, hkept, -⟩ := hs.open_of_held hheld
      have hregister := Session.register_route hg hkept relationship
      rw [hs.current _ _ (Session.held_eq_ok.1 hheld).1] at hregister
      exact hregister

/-- **Flow files that are routed in a row are all routed, or those before the first one that is
rejected.** -/
theorem routeAll_outcome (hs : s.session.Keyed) (fs : List FlowFile) (relationship : Text) :
    ((∀ f ∈ fs, ∀ fault, ¬(Operation.route f relationship).Barred s f fault) ∧
      ∃ t, s.routeAll fs relationship = (.ok (), t) ∧ s.Routed t fs relationship) ∨
    ∃ before f later fault t, fs = before ++ f :: later ∧
      (∀ g ∈ before, ∀ fault, ¬(Operation.route g relationship).Barred s g fault) ∧
      (Operation.route f relationship).Barred s f fault ∧
      s.routeAll fs relationship = (.error (.flowFile fault), t) ∧
      s.Routed t before relationship := by
  induction fs generalizing s with
  | nil => exact .inl ⟨by simp, s, rfl, rfl, rfl, rfl⟩
  | cons f rest ih =>
    rw [routeAll]
    obtain ⟨hfree, t, hroute, hkeyed, hrouted⟩ | ⟨fault, hbarred, hroute⟩ :=
      route_outcome hs f relationship
    · rw [hroute]
      -- a routing puts nothing in the way of the later ones, nor out of it
      have hcurrent := congrArg Register.current hrouted.register
      have hremovals := congrArg Register.removals hrouted.register
      have hsame (g : FlowFile) (fault : Error.FlowFileFault) :
          (Operation.route g relationship).Barred t g fault ↔
            (Operation.route g relationship).Barred s g fault :=
        ⟨fun h => h.of_register hcurrent.symm hremovals.symm hrouted.pool.symm,
          fun h => h.of_register hcurrent hremovals hrouted.pool⟩
      have hthen {u : Scope} {gs : List FlowFile} (hu : t.Routed u gs relationship) :
          s.Routed u (f :: gs) relationship := by
        refine ⟨?_, ?_, hu.pool.trans hrouted.pool⟩
        · rw [hu.register, hrouted.register]
          rfl
        · rw [hu.session, hrouted.session]
      obtain ⟨hrest, u, hu, hroutedu⟩ | ⟨before, g, later, fault, u, hsplit, hbefore, hg, hu,
        hroutedu⟩ := ih hkeyed
      · refine .inl ⟨fun g hg fault => ?_, u, hu, hthen hroutedu⟩
        rcases List.mem_cons.1 hg with rfl | hg
        · exact hfree fault
        · exact fun h => hrest g hg fault ((hsame g fault).2 h)
      · refine .inr ⟨f :: before, g, later, fault, u, by rw [hsplit]; rfl, fun g' hg' fault' => ?_,
          (hsame g fault).1 hg, hu, hthen hroutedu⟩
        rcases List.mem_cons.1 hg' with rfl | hg'
        · exact hfree fault'
        · exact fun h => hbefore g' hg' fault' ((hsame g' fault').2 h)
    · rw [hroute]
      exact .inr ⟨[], f, rest, fault, s, rfl, by simp, hbarred, rfl, rfl, rfl, rfl⟩

end Scope

/-- **A rejected operation changes nothing.**  After any operations of a session, at a pool with any
flow files: an operation on one flow file fails exactly if the flow file is not there or given up,
if it is to leave through a relationship that does not exist or to go back without having come from
the queue, or if its stream or its writer fails; and whenever it fails, the session and the pool are
as before.  Flow files that are to be routed in a row are routed one after the other until one is
rejected. -/
theorem Session.rejected_changes_nothing (steps : List (Pool × Operation)) (pool : Pool) :
    let s : Scope := ⟨(follow steps).1, pool⟩
    (∀ (op : Operation) (f : FlowFile), op.subject? = some f →
      (∀ e, (op.run s).1 = .error e ↔ op.Fails s f e) ∧
      ((∀ writer, op ≠ .write writer f) →
        ((∃ e, (op.run s).1 = .error e ∧ e.kind = .flowFileHandling) ↔
          ∃ fault, op.Barred s f fault)) ∧
      ∀ e, (op.run s).1 = .error e → (op.run s).2 = s) ∧
    ∀ (fs : List FlowFile) (relationship : Text),
      ((∀ f ∈ fs, ∀ fault, ¬(Operation.route f relationship).Barred s f fault) ∧
        ∃ t, (Operation.routeAll fs relationship).run s = (.ok .done, t) ∧
          s.Routed t fs relationship) ∨
      ∃ before f later fault t, fs = before ++ f :: later ∧
        (∀ g ∈ before, ∀ fault, ¬(Operation.route g relationship).Barred s g fault) ∧
        (Operation.route f relationship).Barred s f fault ∧
        (Operation.routeAll fs relationship).run s = (.error (.flowFile fault), t) ∧
        s.Routed t before relationship := by
  intro s
  refine ⟨fun op f hsubject => ⟨Operation.run_eq_error_iff hsubject, fun hwrite => ⟨?_, ?_⟩,
    fun e he => ?_⟩, fun fs relationship => ?_⟩
  · rintro ⟨e, he, hkind⟩
    obtain ⟨fault, -, hbarred⟩ := (Operation.fails_of_run hsubject he).is_barred hwrite hkind
    exact ⟨fault, hbarred⟩
  · rintro ⟨fault, hbarred⟩
    have hfails : op.Fails s f (.flowFile fault) := .barred (hwrite none) hbarred
    exact ⟨.flowFile fault, (Operation.run_eq_error_iff hsubject _).2 hfails, rfl⟩
  · rw [(Operation.fails_of_run hsubject he).run hsubject]
  · have hkeyed : s.session.Keyed := (reflects.follow steps).keyed
    obtain ⟨hfree, t, hrun, hrouted⟩ | ⟨before, f, later, fault, t, hsplit, hbefore, hbarred, hrun,
      hrouted⟩ := Scope.routeAll_outcome hkeyed fs relationship
    · exact .inl ⟨hfree, t, by rw [Operation.run, hrun]; rfl, hrouted⟩
    · exact .inr ⟨before, f, later, fault, t, hsplit, hbefore, hbarred,
        by rw [Operation.run, hrun]; rfl, hrouted⟩

end ProcessorBench
