import ProcessorBench.Proofs.Session.Amend
import ProcessorBench.Proofs.Session.Commit
import ProcessorBench.Proofs.Session.Outcome

/-!
# Flow files that are new

A session that makes a flow file takes the next number of the supply and keeps the flow file under
it, unless it holds one with the number already.  Numbers of a supply do not repeat, but the queue
may hold flow files that have theirs from elsewhere.  A flow file that is made under a number that
is held is not kept: whoever was given it names the other one.

* `Scope.routeAll_commit` — all open flow files can be routed and committed together.
* `Session.Tracks` — what it means that a flow file is kept as a new one.
* `Session.made_tracked` — what is made is kept if its number is not held, and only then; where all
  numbers are the supply's own this is always so.
* `Session.made_under_held_number` — it is not always so.
-/

set_option autoImplicit false

namespace ProcessorBench

/-! ## Committing all that is open -/

theorem Register.foldl_route (reg : Register) (fs : List FlowFile) (relationship : Text) :
    let reg' := fs.foldl (fun reg f => reg.route f.id relationship) reg
    reg'.current = reg.current ∧ reg'.removals = reg.removals ∧
      ∀ id, reg'.transfers.get? id =
        if id ∈ fs.map (·.id) then some relationship else reg.transfers.get? id := by
  intro reg'
  induction fs generalizing reg with
  | nil => exact ⟨rfl, rfl, fun id => by simp [reg']⟩
  | cons f rest ih =>
    obtain ⟨hcurrent, hremovals, htransfers⟩ := ih (reg.route f.id relationship)
    refine ⟨hcurrent, hremovals, fun id => (htransfers id).trans ?_⟩
    rw [List.map_cons]
    by_cases hrest : id ∈ rest.map (·.id)
    · rw [if_pos hrest, if_pos (List.mem_cons_of_mem _ hrest)]
    · rw [if_neg hrest, route, Table.get?_insert]
      simp only [List.mem_cons, hrest, or_false]

namespace Scope

variable {s : Scope} {relationship : Text} {fs : List FlowFile}

/-- Open flow files can be routed in a row to a relationship that there is. -/
theorem routeAll_open (hs : s.session.Keyed) (hdeclared : relationship ∈ s.pool.relationships)
    (hopen : ∀ f ∈ fs, s.session.register.Open f.id) :
    ∃ t, (Operation.routeAll fs relationship).run s = (.ok .done, t) ∧
      s.Routed t fs relationship := by
  obtain ⟨-, t, hrun, hrouted⟩ | ⟨before, f, later, fault, t, rfl, -, hbarred, -⟩ :=
    routeAll_outcome hs fs relationship
  · exact ⟨t, by rw [Operation.run, hrun]; rfl, hrouted⟩
  · have hf := hopen f (by simp)
    cases hbarred with
    | notHeld _ missing => exact absurd hf.1 missing
    | alreadyRemoved _ removed => exact absurd removed hf.2
    | undeclaredRelationship _ _ undeclared => exact absurd hdeclared undeclared

/-- **All open flow files can be committed together**, each in its latest version and beside the
others. -/
theorem routeAll_commit (hs : s.session.Keyed) (hdeclared : relationship ∈ s.pool.relationships)
    (hopen : ∀ id, s.session.register.Open id ↔ id ∈ fs.map (·.id)) :
    ∃ t u, (Operation.routeAll fs relationship).run s = (.ok .done, t) ∧
      Operation.commit.run t = (.ok .done, u) ∧
      ∀ id v, s.session.Latest id v →
        v.AddedOnce (s.session.routedTo relationship) (u.session.routedTo relationship) := by
  obtain ⟨t, hrun, hrouted⟩ := routeAll_open hs hdeclared fun f hf =>
    (hopen f.id).2 (List.mem_map_of_mem hf)
  have hkeyed : t.session.Keyed := by
    have hkeyed := (Operation.routeAll fs relationship).run_keyed hs
    rwa [hrun] at hkeyed
  obtain ⟨hcurrent, hremovals, htransfers⟩ := s.session.register.foldl_route fs relationship
  rw [← hrouted.register] at hcurrent hremovals htransfers
  -- every open flow file has a relationship to leave through, so nothing is undecided
  have hleaves : ∀ id, t.session.register.Open id →
      t.session.register.transfers.get? id = some relationship := by
    intro id ht
    unfold Register.Open at ht
    rw [hcurrent, hremovals] at ht
    rw [htransfers, if_pos ((hopen id).1 ht)]
  have hdecided : t.session.undecided? = none := by
    cases hundecided : t.session.undecided? with
    | none => rfl
    | some id =>
      obtain ⟨hheld, hnot, -, hkept⟩ :=
        Session.undecided_iff.2 (Session.undecided_of_undecided? hundecided)
      rw [Table.mem_keys, hleaves id ⟨hheld, hkept⟩] at hnot
      exact absurd rfl hnot
  have hcommit : Operation.commit.run t = (.ok .done, t.publish) := by
    rw [Operation.run, commit, hdecided]
    rfl
  refine ⟨t, t.publish, hrun, hcommit, fun id v hv => ?_⟩
  have hlatest : t.session.Latest id v := by
    unfold Session.Latest Register.Open
    rw [hcurrent, hremovals]
    exact hv
  have hid := hleaves id hlatest.1
  have hbefore : t.session.routedTo relationship = s.session.routedTo relationship := by
    rw [hrouted.session]
    rfl
  obtain ⟨r, hr, hadded⟩ | ⟨hreturns, -⟩ := (hlatest.shows hkeyed).published t.pool _ hcommit
  · obtain rfl : r = relationship := Option.some.inj (hr.symm.trans hid)
    rwa [hbefore] at hadded
  · -- what leaves does not go back
    rw [Table.mem_keys] at hreturns
    simp only [Session.register, Table.get?_filterMap] at hid hreturns
    obtain ⟨g, hg, hfate⟩ := Option.bind_eq_some_iff.1 hid
    rw [hg, Option.bind_some] at hreturns
    cases hf : g.fate <;> simp [hf, Fate.relationship?] at hfate hreturns

end Scope

/-! ## What a call makes -/

/-- The content with which an operation makes a flow file: none, or that of the flow file that it
clones. -/
def Operation.Fills (s : Session) : Operation → Buffer → Prop
  | clone source, content => ∃ v, s.Latest source.id v ∧ content = v.content
  | _, content => content.bytes = []

namespace Operation

variable {op : Operation} {s : Scope} {f : FlowFile}

theorem run_fills (hop : op.makes = true) (hanswer : (op.run s).1 = .ok (.flowFile f)) :
    op.Fills s.session f.content := by
  cases op with
  | create =>
    cases hanswer
    rfl
  | createChild parent =>
    rw [run, Scope.createChild] at hanswer
    obtain ⟨fault, -, hrun⟩ | ⟨h, -, hrun⟩ := Scope.withHeld_cases s parent _
    · rw [hrun] at hanswer
      cases hanswer
    · rw [hrun] at hanswer
      cases hanswer
      rfl
  | clone source =>
    rw [run, Scope.clone] at hanswer
    obtain ⟨fault, -, hrun⟩ | ⟨h, hheld, hrun⟩ := Scope.withHeld_cases s source _
    · rw [hrun] at hanswer
      cases hanswer
    · rw [hrun] at hanswer
      cases hanswer
      obtain ⟨hg, hkept⟩ := Session.held_eq_ok.1 hheld
      exact ⟨h.current, Session.latest_iff.2 ⟨h, hg, hkept, rfl⟩, rfl⟩
  | _ => cases hop

/-- A call that answers a flow file that it is to make has made it. -/
theorem makes_of_answer (hop : op.makes = true) (hanswer : (op.run s).1 = .ok (.flowFile f)) :
    ∃ kind details, op.Makes s f kind details := by
  obtain ⟨fs, htakes⟩ | ⟨g, kind, details, hmakes⟩ | hrests := op.course s
  · cases (polls_of_makes hop).symm.trans htakes.polls
  · have hanswers := hmakes.answer
    rw [hanswer] at hanswers
    cases hanswers
    exact ⟨kind, details, hmakes⟩
  · have hfails := hrests.fails
    unfold made at hfails
    rw [hop, hanswer] at hfails
    cases hfails

theorem settles_of_edits (hop : op.edits = true) : op.settles = false ∧ ∀ f, op ≠ .drop f := by
  cases op with
  | importBytes | importStream | write | putAttribute | putAttributes | removeAttribute =>
    exact ⟨rfl, fun f => by simp⟩
  | _ => cases hop

end Operation

/-! ## Kept as new -/

namespace Session

/-- The numbers of the open flow files. -/
def openNumbers (s : Session) : List UInt64 := s.numbers fun h => h.fate ≠ .drop

variable {s : Session} {id k : UInt64}

theorem mem_openNumbers : id ∈ s.openNumbers ↔ s.register.Open id := by
  unfold openNumbers
  rw [mem_numbers, open_iff]
  simp only [decide_eq_true_eq]

theorem not_mem_current : id ∉ s.register.current.keys ↔ s.holdings.get? id = none := by
  rw [Table.mem_keys, register, Table.get?_filterMap]
  cases s.holdings.get? id <;> simp

theorem length_openNumbers_hold {f : FlowFile} (hnew : s.holdings.get? f.id = none) :
    (s.hold f).openNumbers.length = s.openNumbers.length + 1 := by
  have hnot : f.id ∉ s.openNumbers := by
    rw [mem_openNumbers]
    exact fun hopen => not_mem_current.2 hnew hopen.1
  have hnodup (t : Session) : t.openNumbers.Nodup := Scope.numbers_nodup t _
  have hperm : (s.hold f).openNumbers.Perm (f.id :: s.openNumbers) := by
    refine (List.perm_ext_iff_of_nodup (hnodup _)
      (List.nodup_cons.2 ⟨hnot, hnodup s⟩)).2 fun id => ?_
    rw [List.mem_cons, mem_openNumbers, mem_openNumbers, open_iff, open_iff, get?_hold, hnew]
    by_cases hid : id = f.id
    · simp [hid]
    · simp [hid]
  rw [hperm.length_eq, List.length_cons]

/-- Changes of one flow file leave the others as they are. -/
theorem proceed_elsewhere (hs : s.Keyed) {later : List (Pool × Operation)}
    (hlater : ∀ e ∈ later, e.2.changes k = true) (hid : id ≠ k) :
    (s.proceed later).holdings.get? id = s.holdings.get? id := by
  induction later using List.reverseRecOn with
  | nil => rfl
  | append_singleton later e ih =>
    obtain ⟨hop, f, hnames, rfl⟩ :=
      Operation.names_of_changes (hlater e (List.mem_append_right _ (List.mem_singleton_self e)))
    have hstep := (Operation.run_edits_one (s := ⟨s.proceed later, e.1⟩) hop hnames
      (hs.proceed later)).1 id hid
    rw [proceed_append_singleton, hstep]
    exact ih fun d hd => hlater d (List.mem_append_left _ hd)

/-- The flow file `f`, which the operation made, is kept as a flow file of its own. -/
structure Tracks (s : Scope) (op : Operation) (f : FlowFile) : Prop where
  /-- One more flow file is open. -/
  count : (op.run s).2.session.openNumbers.length = s.session.openNumbers.length + 1
  /-- What is kept under its number is what was answered. -/
  latest : (op.run s).2.session.Latest f.id f
  others : ∀ id, id ≠ f.id →
    (op.run s).2.session.holdings.get? id = s.session.holdings.get? id
  apart : ∀ id v, s.session.Latest id v → id ≠ f.id
  /-- Changes through any version of it are changes of it and of nothing else. -/
  changed : ∀ later : List (Pool × Operation), (∀ e ∈ later, e.2.changes f.id = true) →
    (∃ w, ((op.run s).2.session.proceed later).Latest f.id w ∧
      f.Amended (later.map Prod.snd) w) ∧
    ∀ id, id ≠ f.id →
      ((op.run s).2.session.proceed later).holdings.get? id = s.session.holdings.get? id
  /-- When after such changes all open flow files are routed and committed, it is published beside
  those that were there before. -/
  published : ∀ (later : List (Pool × Operation)) (pool : Pool) (fs : List FlowFile)
    (relationship : Text), (∀ e ∈ later, e.2.changes f.id = true) →
    relationship ∈ pool.relationships →
    let u : Scope := ⟨(op.run s).2.session.proceed later, pool⟩
    (∀ id, u.session.register.Open id ↔ id ∈ fs.map (·.id)) →
    ∃ routed committed w, (Operation.routeAll fs relationship).run u = (.ok .done, routed) ∧
      Operation.commit.run routed = (.ok .done, committed) ∧
      f.Amended (later.map Prod.snd) w ∧
      w.AddedOnce (u.session.routedTo relationship) (committed.session.routedTo relationship) ∧
      ∀ id v, s.session.Latest id v →
        v.AddedOnce (u.session.routedTo relationship) (committed.session.routedTo relationship)

end Session

namespace Session

variable {s : Scope} {op : Operation} {f : FlowFile}

/-- **What is made under a number that is not held is kept.** -/
theorem tracks_of_new (hs : s.session.Keyed) (hop : op.makes = true)
    (hanswer : (op.run s).1 = .ok (.flowFile f)) (hnew : s.session.holdings.get? f.id = none) :
    Tracks s op f := by
  obtain ⟨kind, details, hmakes⟩ := Operation.makes_of_answer hop hanswer
  have hget (id : UInt64) : (op.run s).2.session.holdings.get? id =
      if id = f.id then some { current := f } else s.session.holdings.get? id := by
    rw [hmakes.session]
    exact (get?_hold s.session f id).trans (by rw [hnew, Option.getD_none])
  have hkeyed := op.run_keyed hs
  have hlatest : (op.run s).2.session.Latest f.id f :=
    latest_iff.2 ⟨{ current := f }, by rw [hget, if_pos rfl], nofun, rfl⟩
  have hothers (id : UInt64) (hid : id ≠ f.id) :
      (op.run s).2.session.holdings.get? id = s.session.holdings.get? id := by
    rw [hget, if_neg hid]
  have hapart (id : UInt64) (v : FlowFile) (hv : s.session.Latest id v) : id ≠ f.id := by
    rintro rfl
    exact not_mem_current.2 hnew hv.1.1
  have hchanged (later : List (Pool × Operation))
      (hlater : ∀ e ∈ later, e.2.changes f.id = true) :
      (∃ w, ((op.run s).2.session.proceed later).Latest f.id w ∧
        f.Amended (later.map Prod.snd) w) ∧
      ∀ id, id ≠ f.id →
        ((op.run s).2.session.proceed later).holdings.get? id = s.session.holdings.get? id := by
    refine ⟨hlatest.proceed hkeyed later fun e he => ?_, fun id hid => ?_⟩
    · obtain ⟨hsettles, hdrop⟩ :=
        Operation.settles_of_edits (Operation.names_of_changes (hlater e he)).1
      exact ⟨hsettles, fun g hg => absurd hg (hdrop g)⟩
    · rw [proceed_elsewhere hkeyed hlater hid, hothers id hid]
  refine ⟨?_, hlatest, hothers, hapart, hchanged, ?_⟩
  · rw [hmakes.session]
    exact length_openNumbers_hold hnew
  · intro later pool fs relationship hlater hdeclared u hopen
    obtain ⟨⟨w, hw, hamended⟩, helsewhere⟩ := hchanged later hlater
    obtain ⟨routed, committed, hrouted, hcommitted, hadded⟩ :=
      Scope.routeAll_commit (s := u) (hkeyed.proceed later) hdeclared hopen
    refine ⟨routed, committed, w, hrouted, hcommitted, hamended, hadded f.id w hw,
      fun id v hv => hadded id v ?_⟩
    obtain ⟨g, hg, hkept, hcurrent⟩ := latest_iff.1 hv
    exact latest_iff.2 ⟨g, (helsewhere id (hapart id v hv)).trans hg, hkept, hcurrent⟩

/-- **A flow file that is made is kept as a new one, if its number is not held.**  After any
operations of a session, at a pool with any flow files, a call that makes a flow file gives it the
next number of the supply and the content that it is to have.  If the session holds no flow file
with the number, the flow file is kept; otherwise nothing is kept of it.  In a workspace where all
flow files, queued or held, have different numbers that the supply gave out, none is held. -/
theorem made_tracked {op : Operation} (hop : op.makes = true) (f : FlowFile) :
    (∀ (steps : List (Pool × Operation)) (pool : Pool),
      let s : Scope := ⟨(follow steps).1, pool⟩
      (op.run s).1 = .ok (.flowFile f) →
      f.id = pool.supply.nextId ∧ op.Fills s.session f.content ∧
      (f.id ∉ s.session.register.current.keys → Tracks s op f) ∧
      (f.id ∈ s.session.register.current.keys →
        (op.run s).2.session.holdings = s.session.holdings)) ∧
    ∀ (w : Workspace), w.Distinct → ∀ events : List Workspace.Event,
      w.pool.supply.nextId.toNat + (Custody.after w events).issued.length < UInt64.size →
      ∀ (n : Nat) (s : Scope), (events.foldl Workspace.handle w).scope? n = some s →
        (op.run s).1 = .ok (.flowFile f) → Tracks s op f := by
  refine ⟨?_, ?_⟩
  · intro steps pool s hanswer
    obtain ⟨kind, details, hmakes⟩ := Operation.makes_of_answer hop hanswer
    refine ⟨hmakes.number, Operation.run_fills hop hanswer, fun hnew => ?_, fun hheld => ?_⟩
    · exact tracks_of_new (reflects.follow steps).keyed hop hanswer (not_mem_current.1 hnew)
    · rw [hmakes.session]
      show s.session.holdings.insertIfNew f.id { current := f } = s.session.holdings
      refine if_pos ?_
      rw [Table.mem_keys, register, Table.get?_filterMap] at hheld
      unfold Table.contains
      cases hg : s.session.holdings.get? f.id with
      | none =>
        rw [hg] at hheld
        cases hheld
      | some h => rfl
  · intro w hw events hlt n s hs hanswer
    obtain ⟨kind, details, hmakes⟩ := Operation.makes_of_answer hop hanswer
    obtain ⟨hkeyed, -, hfresh⟩ := (hw.foldl events hlt).1.scope hs
    refine tracks_of_new hkeyed hop hanswer ?_
    rw [← hmakes.number] at hfresh
    rw [← Option.not_isSome_iff_eq_none, ← Table.mem_keys]
    exact fun hm => hfresh (List.mem_append_right _ hm)

/-- A flow file that is made beside one that was taken, in a workspace with numbers of its own. -/
theorem made_tracked_of_two :
    let f : FlowFile := ⟨7, ∅, ⟨.caller 0, [104, 105]⟩, 0⟩
    let g : FlowFile := ⟨8, ∅, ⟨.caller 1, []⟩, 0⟩
    let w : Workspace :=
      { pool := { supply := { nextId := 9 }, queue := ⟨[f, g]⟩ }, sessions := [{}] }
    ∃ s, (w.handle (.call 0 .poll)).scope? 0 = some s ∧ s.session.Latest 7 f ∧
      s.create.1.id = 9 ∧ Tracks s .create s.create.1 := by
  intro f g w
  have hw : w.Distinct := .of_idle (by decide) (by decide) (by decide)
  refine ⟨_, rfl, ?_, by decide, ?_⟩
  · exact latest_iff.2 ⟨{ current := f, polled := some f }, rfl, nofun, rfl⟩
  · exact (made_tracked rfl _).2 w hw [.call 0 .poll] (by decide +kernel) 0 _ rfl rfl

/-- A queued flow file has the number that the supply gives out next.  After it was taken, the flow
file that is made is not kept: whoever reads it reads the queued one, and a commit publishes one
flow file. -/
theorem made_under_held_number :
    let queued : FlowFile := ⟨0, ∅, ⟨.caller 0, [97]⟩, 0⟩
    let s := (Operation.poll.run
      { pool := { relationships := ["success"], queue := ⟨[queued]⟩ } }).2
    let made := s.create.1
    let t := s.create.2
    let routed := ((Operation.routeAll [queued, made] "success").run t).2
    (Operation.create.run s).1 = .ok (.flowFile made) ∧ made.content.bytes = [] ∧
      ((Operation.read made).run t).1 = .ok (.content [97]) ∧
      t.session.openNumbers.length = s.session.openNumbers.length ∧
      ¬Tracks s .create made ∧
      (Operation.commit.run routed).2.session.routedTo "success" = [queued] := by
  intro queued s made t routed
  have hopen : t.session.openNumbers.length = s.session.openNumbers.length := by decide +kernel
  refine ⟨rfl, rfl, by rfl, hopen, fun htracks => ?_, by decide +kernel⟩
  have hcount : t.session.openNumbers.length = _ := htracks.count
  rw [hopen] at hcount
  exact absurd hcount (Nat.ne_of_lt (Nat.lt_succ_self _))

end Session

end ProcessorBench
