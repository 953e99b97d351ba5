import Mathlib.Algebra.BigOperators.Option
import Mathlib.Algebra.BigOperators.Ring.Finset
import Mathlib.Algebra.Order.BigOperators.Group.Finset
import ProcessorBench.Proofs.Session.Distinct
import ProcessorBench.Proofs.Session.Identifier

/-!
# What came in and where it went

Sessions of one workspace may work in any turns.  If each of them does one unit of work, and ends it
with one commit or one rollback, then at last each flow file that was queued, or made by a session
that committed, is in the queue, with a relationship or given up.

* `Session.Once` — what holds of a session that does one unit of work; each call keeps it
  (`Scope.once_run`), and so do its ends (`Scope.once_publish`, `Scope.once_rollback`).
* `Custody.InOrder` — all sessions of a workspace do one unit of work, and the flow files are
  accounted for; each event that is due keeps it (`Custody.InOrder.step`).
* `Custody.InOrder.balance` — the flow files add up when all units of work have ended.
-/

set_option autoImplicit false

namespace ProcessorBench

open Program (Call)

/-! ## One unit of work -/

/-- A call that does not end the unit of work is no commit and no rollback. -/
theorem Operation.run_unended {op : Operation} (hop : op.settles = false) (s : Scope) :
    (op.run s).2.session.commits = s.session.commits ∧
      (op.run s).2.session.rollbacks = s.session.rollbacks ∧
      (op.run s).2.pool.relationships = s.pool.relationships := by
  have heffect := op.effect hop s
  generalize (op.run s).2 = s' at heffect
  cases heffect with
  | works hw => exact ⟨hw.unpublished.commits, hw.unpublished.rollbacks, hw.unpublished.relationships⟩
  | creates hc =>
    exact ⟨hc.unpublished.commits, hc.unpublished.rollbacks, hc.unpublished.relationships⟩
  | forgets _ => exact ⟨rfl, rfl, rfl⟩

/-- The session does one unit of work, on a pool with these relationships.  So far it made these
numbers, and forgot those. -/
structure Session.Once (s : Session) (relationships : List Text) (made discarded : List UInt64) :
    Prop where
  valid : s.register.Valid relationships
  declared : ∀ relationship, relationship ∉ relationships → s.routedTo relationship = []
  /-- Without a commit nothing is published. -/
  unpublished : s.commits = 0 → s.routed = ∅ ∧ s.removedCount = 0
  /-- Without a rollback nothing is forgotten. -/
  kept : s.rollbacks = 0 → discarded = []
  /-- Without a commit, what was made is held, or forgotten. -/
  made : s.commits = 0 → ∀ id ∈ made,
    (s.holdings.get? id).map (·.polled) = some none ∨ id ∈ discarded

/-- A call that makes a flow file makes it under the next number. -/
theorem Program.Call.made_ids (op : Operation) (s : Scope) :
    (Call.made (op, (op.run s).1)).map (·.id) =
      if op.made s then [s.pool.supply.nextId] else [] := by
  cases hmakes : op.makes with
  | false =>
    have hnone : op.made s = false := by
      unfold Operation.made
      rw [hmakes, Bool.false_and]
    unfold Call.made
    rw [hnone, hmakes]
    rfl
  | true =>
    cases hmade : op.made s with
    | false =>
      have hpolls : op.polls = false := by cases op <;> first | rfl | cases hmakes
      rw [(Call.polled_made_eq_nil hpolls hmade).2]
      rfl
    | true =>
      obtain ⟨f, -, -, hanswer, hid, -⟩ := op.run_made hmade
      rw [hanswer, (Call.made_of_makes hmakes f).2, List.map_singleton, hid]
      rfl

namespace Scope

variable {s s' : Scope} {relationships : List Text} {made discarded : List UInt64}

/-- A flow file that was made is no polled one later on. -/
theorem Tends.keeps_made (hs : s.session.Keyed) (hdistinct : s.inHand.Nodup) (h : s.Tends s')
    {id : UInt64} (hid : (s.session.holdings.get? id).map (·.polled) = some none) :
    (s'.session.holdings.get? id).map (·.polled) = some none := by
  obtain ⟨f, rest, hq, rfl⟩ | ha := h.take_or_amends hs
  · have hheld : id ∈ s.session.holdings.keys := by
      rw [Table.mem_keys, ← Option.isSome_map (f := Holding.polled), hid]
      rfl
    have hne : id ≠ f.id := by
      rintro rfl
      unfold inHand at hdistinct
      rw [hq, List.map_cons, List.cons_append, List.nodup_cons] at hdistinct
      exact hdistinct.1 (List.mem_append_right _ hheld)
    show ((s.session.holdPolled f).holdings.get? id).map _ = _
    rw [Session.get?_holdPolled, if_neg hne]
    exact hid
  · rw [ha.polled]
    exact hid

theorem Works.keeps_made (hs : s.session.Keyed) (hdistinct : s.inHand.Nodup) (h : s.Works s')
    {id : UInt64} (hid : (s.session.holdings.get? id).map (·.polled) = some none) :
    (s'.session.holdings.get? id).map (·.polled) = some none := by
  induction h with
  | refl => exact hid
  | tail hw ht ih =>
    exact ht.keeps_made (Works.keyed hs hw)
      ((Works.inHand_perm hs hdistinct hw).1.nodup_iff.2 hdistinct) ih

/-- A flow file that is made is held as one that was not polled, and so are those that were. -/
theorem Creates.keeps_made (hfresh : s.pool.supply.nextId ∉ s.inHand) (h : s.Creates s')
    {id : UInt64} (hid : (s.session.holdings.get? id).map (·.polled) = some none ∨
      id = s.pool.supply.nextId) :
    (s'.session.holdings.get? id).map (·.polled) = some none := by
  cases h with
  | intro f supply kind details numbered next =>
    have hnone : s.session.holdings.get? f.id = none := by
      have hnew : f.id ∉ s.session.holdings.keys := fun hm =>
        hfresh (numbered ▸ List.mem_append_right _ hm)
      rw [Table.mem_keys] at hnew
      simpa using hnew
    show ((s.session.hold f).holdings.get? id).map _ = _
    rw [Session.get?_hold]
    by_cases hf : id = f.id
    · rw [if_pos hf, hnone]
      rfl
    · rw [if_neg hf]
      exact hid.resolve_right fun h => hf (h.trans numbered.symm)

theorem once_of_unpublished (h : s.session.Once relationships made discarded)
    (hu : s.Unpublished s') (hvalid : s'.session.register.Valid relationships)
    {made' : List UInt64}
    (hmade : s.session.commits = 0 → ∀ id ∈ made',
      (s'.session.holdings.get? id).map (·.polled) = some none ∨ id ∈ discarded) :
    s'.session.Once relationships made' discarded where
  valid := hvalid
  declared r hr := by
    have hsame : s'.session.routedTo r = s.session.routedTo r := by
      unfold Session.routedTo
      rw [hu.routed]
    rw [hsame]
    exact h.declared r hr
  unpublished hcommits := by
    rw [hu.routed, hu.removedCount]
    exact h.unpublished (hu.commits ▸ hcommits)
  kept hrollbacks := h.kept (hu.rollbacks ▸ hrollbacks)
  made hcommits := hmade (hu.commits ▸ hcommits)

/-- **A call goes on with the unit of work.**  To forget what was routed is nothing to a session
that did not commit yet. -/
theorem once_run {op : Operation} (hop : op.settles = false)
    (h : s.session.Once relationships made discarded)
    (hrelationships : s.pool.relationships = relationships) (hs : s.session.Keyed)
    (hdistinct : s.inHand.Nodup) (hcommits : s.session.commits = 0)
    (hfresh : op.made s = true → s.pool.supply.nextId ∉ s.inHand) :
    (op.run s).2.session.Once relationships
      (made ++ (Call.made (op, (op.run s).1)).map (·.id)) discarded := by
  rw [Call.made_ids]
  have hmoves := op.moves hs
  rw [hrelationships] at hmoves
  have hvalid := h.valid.of_moves hmoves
  obtain ⟨hmade, hcreates⟩ | ⟨hmade, hworks | rfl⟩ := op.made_or_works hop s
  · rw [hmade, if_pos rfl]
    refine once_of_unpublished h hcreates.unpublished hvalid fun _ id hid => ?_
    rw [List.mem_append, List.mem_singleton] at hid
    rcases hid with hid | hid
    · exact (h.made hcommits id hid).imp_left fun hold =>
        hcreates.keeps_made (hfresh hmade) (.inl hold)
    · exact .inl (hcreates.keeps_made (hfresh hmade) (.inr hid))
  · rw [hmade, if_neg Bool.false_ne_true, List.append_nil]
    exact once_of_unpublished h hworks.unpublished hvalid fun _ id hid =>
      (h.made hcommits id hid).imp_left (hworks.keeps_made hs hdistinct)
  · rw [hmade, if_neg Bool.false_ne_true, List.append_nil]
    exact ⟨hvalid, fun _ _ => rfl, fun _ => ⟨rfl, rfl⟩, h.kept, h.made⟩

end Scope

/-- What leaves a session leaves through relationships that there are. -/
theorem Session.leaving_declared {relationships : List Text} {s : Session}
    (h : s.register.Valid relationships) : ∀ e ∈ s.leaving, e.1 ∈ relationships := by
  intro e he
  obtain ⟨g, hg, hfate⟩ := List.mem_filterMap.1 he
  obtain ⟨⟨id, g⟩, hentry, rfl⟩ := List.mem_map.1 hg
  have hget : s.holdings.get? id = some g := (s.holdings.mem_entries id g).1 hentry
  refine h.declared id e.1 ?_
  unfold register
  rw [Table.get?_filterMap, hget]
  cases hf : g.fate with
  | route relationship =>
    rw [hf] at hfate
    cases hfate
    simp [hf, Fate.relationship?]
  | undecided | giveBack | drop =>
    rw [hf] at hfate
    cases hfate

namespace Scope

variable {s : Scope} {relationships : List Text} {made discarded : List UInt64}

/-- **A commit ends the unit of work.** -/
theorem once_publish (h : s.session.Once relationships made discarded) :
    s.publish.session.Once relationships made discarded where
  valid := by
    rw [Session.register_of_empty rfl]
    exact .empty
  declared r hr := by
    rw [Scope.routedTo_publish, h.declared r hr, List.nil_append, List.map_eq_nil_iff,
      List.filter_eq_nil_iff]
    intro e he hre
    exact hr (of_decide_eq_true hre ▸ Session.leaving_declared h.valid e he)
  unpublished hcommits := absurd hcommits (Nat.succ_ne_zero _)
  kept := h.kept
  made hcommits := absurd hcommits (Nat.succ_ne_zero _)

/-- **A rollback ends the unit of work**, and forgets what was made in it. -/
theorem once_rollback (h : s.session.Once relationships made discarded) :
    s.rollback.session.Once relationships made
      (discarded ++ s.session.numbers fun h => h.polled.isNone) where
  valid := by
    rw [Session.register_of_empty rfl]
    exact .empty
  declared := h.declared
  unpublished := h.unpublished
  kept hrollbacks := absurd hrollbacks (Nat.succ_ne_zero _)
  made hcommits id hid := by
    refine .inr (List.mem_append.2 ((h.made hcommits id hid).symm.imp_right fun hheld => ?_))
    obtain ⟨g, hg, hpolled⟩ := Option.map_eq_some_iff.1 hheld
    exact Session.mem_numbers.2 ⟨g, hg, by rw [hpolled]; rfl⟩

end Scope

/-! ## The sessions of a workspace -/

/-- The event does not call a session that committed. -/
def Workspace.Due (w : Workspace) : Workspace.Event → Prop
  | .call n _ => (w.session n).commits = 0
  | .openSession | .enqueue _ _ => True

namespace Workspace

/-- All events are due, one after the other. -/
def AllDue : Workspace → List Event → Prop
  | _, [] => True
  | w, e :: rest => w.Due e ∧ (w.handle e).AllDue rest

theorem allDue_append (w : Workspace) (events : List Event) (e : Event) :
    w.AllDue (events ++ [e]) ↔ w.AllDue events ∧ (events.foldl handle w).Due e := by
  induction events generalizing w with
  | nil => exact ⟨fun h => ⟨trivial, h.1⟩, fun h => ⟨h.2, trivial⟩⟩
  | cons d rest ih =>
    rw [List.cons_append, AllDue, AllDue, ih, List.foldl_cons, and_assoc]

end Workspace

namespace Custody

/-- The numbers that were given out for the session, or for no session. -/
def issuedTo (c : Custody) (asker : Option Nat) : List UInt64 :=
  (c.issued.filter fun e => e.2 = asker).map Prod.fst

/-- All flow files are accounted for, and every session does one unit of work. -/
structure InOrder (first : UInt64) (c : Custody) : Prop where
  accounted : ∃ place, Accounted first c place
  once : ∀ n, (c.workspace.session n).Once c.workspace.pool.relationships (c.issuedTo (some n))
    (c.numbersAt (.discarded n))

variable {first : UInt64} {c : Custody} {place : UInt64 → Option Place} {n : Nat} {s : Scope}

theorem Accounted.inHand_nodup (hc : Accounted first c place)
    (hs : c.workspace.scope? n = some s) : s.inHand.Nodup := by
  obtain ⟨-, hsession, hpool⟩ := Workspace.scope?_eq_some hs
  refine List.nodup_iff_count_le_one.2 fun id => ?_
  have hqueue := hc.located .queue id
  have hheld := hc.located (.held n) id
  simp only [numbersAt] at hqueue hheld
  unfold Scope.inHand
  rw [List.count_append, hpool, hsession, hqueue, hheld]
  by_cases h : place id = some .queue
  · simp [h]
  · rw [if_neg h]
    split <;> simp

/-- A number that was not given out yet is not in hand. -/
theorem Accounted.not_mem_inHand (hc : Accounted first c place)
    (hlt : c.issued.length < UInt64.size) (hs : c.workspace.scope? n = some s) :
    s.pool.supply.nextId ∉ s.inHand := by
  obtain ⟨-, hsession, hpool⟩ := Workspace.scope?_eq_some hs
  have hfresh := hc.fresh hlt
  have hnot (p : Place) : s.pool.supply.nextId ∉ c.numbersAt p := by
    rw [← List.count_eq_zero, hc.located, hpool, hfresh]
    exact if_neg nofun
  unfold Scope.inHand
  rw [List.mem_append, not_or]
  refine ⟨?_, ?_⟩
  · have hqueue := hnot .queue
    rw [numbersAt, ← hpool] at hqueue
    exact hqueue
  · rw [hsession]
    exact hnot (.held n)

theorem issuedTo_step (c : Custody) (e : Workspace.Event) (asker : Option Nat) :
    (c.step e).issuedTo asker = c.issuedTo asker ++
      ((c.workspace.issues e).filter fun d => d.2 = asker).map Prod.fst := by
  show ((c.issued ++ c.workspace.issues e).filter _).map _ = _
  rw [List.filter_append, List.map_append]
  rfl

/-- A call takes a number for its session if it makes a flow file. -/
theorem issues_call (hs : c.workspace.scope? n = some s) (op : Operation) :
    c.workspace.issues (.call n op) =
      ((Call.made (op, (op.run s).1)).map (·.id)).map fun id => (id, some n) := by
  have hpool := (Workspace.scope?_eq_some hs).2.2
  unfold Workspace.issues
  rw [Workspace.handle_call hs, ← hpool]
  show (if (op.run s).2.pool.supply.nextId = s.pool.supply.nextId then _ else _) = _
  obtain ⟨f, hmade, hstamps⟩ | ⟨hmade, hlevel⟩ := op.run_supply s
  · have hne : (op.run s).2.pool.supply.nextId ≠ s.pool.supply.nextId := by
      rw [hstamps.nextId]
      exact Supply.succ_ne _
    rw [if_neg hne, hmade, List.map_singleton, List.map_singleton, hstamps.id]
    rfl
  · rw [if_pos hlevel.nextId, hmade]
    rfl

theorem issuedTo_step_call (hs : c.workspace.scope? n = some s) (op : Operation) (m : Nat) :
    (c.step (.call n op)).issuedTo (some m) = c.issuedTo (some m) ++
      if m = n then (Call.made (op, (op.run s).1)).map (·.id) else [] := by
  rw [issuedTo_step, issues_call hs, List.filter_map, List.map_map]
  by_cases hm : m = n
  · subst hm
    simp [Function.comp_def]
  · have hne : ¬n = m := fun h => hm h.symm
    simp [Function.comp_def, hm, hne]

/-- A number is given out for a flow file that is made in a session. -/
theorem issues_of_not_enqueue {e : Workspace.Event}
    (he : ∀ bytes attributes, e ≠ .enqueue bytes attributes) :
    c.workspace.issues e = (c.workspace.answered e).flatMap fun call =>
      (Call.made call.2).map fun f => (f.id, some call.1) := by
  cases e with
  | openSession => exact if_pos rfl
  | enqueue bytes attributes => exact absurd rfl (he bytes attributes)
  | call n op =>
    cases hs : c.workspace.scope? n with
    | none =>
      rw [Workspace.answered_call_of_none hs]
      unfold Workspace.issues
      rw [Workspace.handle_call_of_none hs]
      exact if_pos rfl
    | some s =>
      rw [issues_call hs, Workspace.answered_call hs, List.flatMap_singleton, List.map_map]
      rfl

/-- The numbers that are given out in a row of events without an enqueueing are those of the flow
files that its calls make. -/
theorem issued_foldl (c : Custody) {events : List Workspace.Event}
    (hevents : ∀ e ∈ events, ∀ bytes attributes, e ≠ .enqueue bytes attributes) :
    (events.foldl step c).issued = c.issued ++ (c.workspace.calls events).flatMap fun call =>
      (Call.made call.2).map fun f => (f.id, some call.1) := by
  induction events generalizing c with
  | nil => exact (List.append_nil _).symm
  | cons e rest ih =>
    obtain ⟨he, hrest⟩ := List.forall_mem_cons.1 hevents
    rw [List.foldl_cons, ih (c.step e) hrest, Workspace.calls, List.flatMap_append,
      ← issues_of_not_enqueue he, ← List.append_assoc]
    rfl

theorem issuedTo_none_foldl (c : Custody) {events : List Workspace.Event}
    (hevents : ∀ e ∈ events, ∀ bytes attributes, e ≠ .enqueue bytes attributes) :
    (events.foldl step c).issuedTo none = c.issuedTo none := by
  unfold issuedTo
  rw [issued_foldl c hevents, List.filter_append]
  simp [List.filter_flatMap, List.filter_map, Function.comp_def]

theorem issuedTo_foldl (c : Custody) {events : List Workspace.Event}
    (hevents : ∀ e ∈ events, ∀ bytes attributes, e ≠ .enqueue bytes attributes) (n : Nat) :
    (events.foldl step c).issuedTo (some n) = c.issuedTo (some n) ++
      ((Workspace.callsTo n (c.workspace.calls events)).flatMap Call.made).map (·.id) := by
  unfold issuedTo
  rw [issued_foldl c hevents, List.filter_append, List.map_append]
  congr 1
  induction c.workspace.calls events with
  | nil => rfl
  | cons call rest ih =>
    obtain ⟨m, call⟩ := call
    rw [List.flatMap_cons, List.filter_append, List.map_append, ih, Workspace.callsTo_cons]
    by_cases hm : m = n
    · simp [hm, List.filter_map, Function.comp_def]
    · simp [hm, List.filter_map, Function.comp_def]

/-- What a call has a session forget. -/
theorem discarded_step_call (hs : c.workspace.scope? n = some s) (op : Operation) (m : Nat) :
    (c.step (.call n op)).numbersAt (.discarded m) = c.numbersAt (.discarded m) ++
      if m = n then op.discards s else [] := by
  rw [step_call hs]
  exact departed_append c.discarded n m _

theorem relationships_run (op : Operation) (s : Scope) :
    (op.run s).2.pool.relationships = s.pool.relationships := by
  cases hop : op.settles with
  | false => exact (op.run_unended hop s).2.2
  | true =>
    obtain rfl | rfl := Operation.commit_or_rollback hop
    · obtain ⟨-, hrun⟩ | ⟨e, hrun⟩ := Operation.run_commit s
      · rw [hrun]
        rfl
      · rw [hrun]
    · rfl

/-- What the session that is called does in its unit of work. -/
theorem Accounted.once_call (hc : Accounted first c place) (hs : c.workspace.scope? n = some s)
    {op : Operation} (hle : (c.step (.call n op)).issued.length ≤ UInt64.size)
    (hcommits : s.session.commits = 0)
    (h : s.session.Once s.pool.relationships (c.issuedTo (some n)) (c.numbersAt (.discarded n))) :
    (op.run s).2.session.Once s.pool.relationships
      (c.issuedTo (some n) ++ (Call.made (op, (op.run s).1)).map (·.id))
      (c.numbersAt (.discarded n) ++ op.discards s) := by
  cases hop : op.settles with
  | false =>
    have hdiscards : op.discards s = [] := by cases op <;> first | rfl | cases hop
    rw [hdiscards, List.append_nil]
    refine Scope.once_run hop h rfl (hc.still hs).keyed (hc.inHand_nodup hs) hcommits fun hmade =>
      hc.not_mem_inHand ?_ hs
    have hissued : (c.step (.call n op)).issued =
        c.issued ++ ((Call.made (op, (op.run s).1)).map (·.id)).map fun id => (id, some n) :=
      congrArg (c.issued ++ ·) (issues_call hs op)
    rw [hissued, Call.made_ids, hmade, List.length_append] at hle
    exact hle
  | true =>
    obtain rfl | rfl := Operation.commit_or_rollback hop
    · have hnone : Call.made (.commit, (Operation.commit.run s).1) = [] := rfl
      rw [hnone, List.map_nil, List.append_nil]
      show Session.Once _ _ _ (_ ++ [])
      rw [List.append_nil]
      obtain ⟨-, hrun⟩ | ⟨e, hrun⟩ := Operation.run_commit s
      · rw [hrun]
        exact Scope.once_publish h
      · rw [hrun]
        exact h
    · have hnone : Call.made (.rollback, (Operation.rollback.run s).1) = [] := rfl
      rw [hnone, List.map_nil, List.append_nil]
      exact Scope.once_rollback h

/-- A session more has not done anything yet. -/
theorem InOrder.openSession (h : c.InOrder first) : (c.step .openSession).InOrder first := by
  obtain ⟨⟨place, hplace⟩, honce⟩ := h
  rw [step_openSession]
  refine ⟨⟨place, hplace.openSession⟩, fun m => ?_⟩
  show Session.Once (c.workspace.openSession.2.session m) _ _ _
  rw [Workspace.session_openSession]
  exact honce m

theorem InOrder.enqueue (h : c.InOrder first) (bytes : List UInt8) (attributes : Attributes)
    (hle : (c.step (.enqueue bytes attributes)).issued.length ≤ UInt64.size) :
    (c.step (.enqueue bytes attributes)).InOrder first := by
  obtain ⟨⟨place, hplace⟩, honce⟩ := h
  have hissued (m : Nat) : (c.step (.enqueue bytes attributes)).issuedTo (some m) =
      c.issuedTo (some m) := by
    rw [issuedTo_step]
    unfold Workspace.issues Workspace.Event.session?
    split <;> simp
  refine ⟨hplace.step rfl hle, fun m => ?_⟩
  rw [hissued]
  rw [step_enqueue]
  obtain ⟨f, supply, henqueue, -⟩ := c.workspace.enqueueBytes_eq bytes attributes
  rw [henqueue]
  exact honce m

/-- The session that is called goes on with its unit of work, and the others have no part in it. -/
theorem InOrder.call (h : c.InOrder first) (hs : c.workspace.scope? n = some s) {op : Operation}
    (hcommits : s.session.commits = 0)
    (hle : (c.step (.call n op)).issued.length ≤ UInt64.size) :
    (c.step (.call n op)).InOrder first := by
  obtain ⟨⟨place, hplace⟩, honce⟩ := h
  obtain ⟨hn, hsession, hpool⟩ := Workspace.scope?_eq_some hs
  have hself := honce n
  rw [← hsession, ← hpool] at hself
  have hworkspace : (c.step (.call n op)).workspace = c.workspace.resume n (op.run s).2 := by
    rw [step_call hs]
  constructor
  · by_cases hclear : op = .clearRouted
    · -- nothing was routed yet, so there is nothing to forget
      subst hclear
      have hsame : (Operation.clearRouted.run s).2 = s := by
        obtain ⟨hrouted, hremoved⟩ := hself.unpublished hcommits
        obtain ⟨session, pool⟩ := s
        show Scope.clearRouted _ = _
        unfold Scope.clearRouted
        rw [← hrouted, ← hremoved]
      have hstep : c.step (.call n .clearRouted) = c := by
        rw [step_call_of_unsettled hs rfl, hsame, if_pos rfl, List.append_nil]
        unfold resume
        rw [Workspace.resume_self hs]
      rw [hstep]
      exact ⟨place, hplace⟩
    · refine hplace.step ?_ hle
      unfold Workspace.Event.remembers
      split
      · rename_i heq
        cases heq
        exact absurd rfl hclear
      · rfl
  · intro m
    rw [issuedTo_step_call hs, discarded_step_call hs, hworkspace, Workspace.session_resume hn]
    show Session.Once _ (op.run s).2.pool.relationships _ _
    rw [relationships_run, hpool]
    by_cases hm : m = n
    · subst hm
      rw [if_pos rfl, if_pos rfl, if_pos rfl, ← hpool]
      exact hplace.once_call hs hle hcommits hself
    · rw [if_neg hm, if_neg hm, if_neg hm, List.append_nil, List.append_nil]
      exact honce m

/-- **Every event that is due keeps the order**, as long as no number is given out twice. -/
theorem InOrder.step (h : c.InOrder first) {e : Workspace.Event} (hdue : c.workspace.Due e)
    (hle : (c.step e).issued.length ≤ UInt64.size) : (c.step e).InOrder first := by
  cases e with
  | openSession => exact h.openSession
  | enqueue bytes attributes => exact h.enqueue bytes attributes hle
  | call n op =>
    cases hs : c.workspace.scope? n with
    | none =>
      rw [step_call_of_none hs]
      exact h
    | some s =>
      refine h.call hs ?_ hle
      rw [(Workspace.scope?_eq_some hs).2.1]
      exact hdue

theorem InOrder.foldl (h : c.InOrder first) {events : List Workspace.Event}
    (hdue : c.workspace.AllDue events)
    (hle : (events.foldl Custody.step c).issued.length ≤ UInt64.size) :
    (events.foldl Custody.step c).InOrder first := by
  induction events generalizing c with
  | nil => exact h
  | cons e rest ih =>
    exact ih (h.step hdue.1 (Nat.le_trans (length_issued_foldl (c.step e) rest).1 hle)) hdue.2 hle

/-- A workspace without sessions and without flow files is in order. -/
theorem InOrder.initial {w : Workspace} (hqueue : w.pool.queue.flowFiles = [])
    (hsessions : w.sessions = []) : InOrder w.pool.supply.nextId { workspace := w } := by
  refine ⟨⟨_, .initial hqueue hsessions⟩, fun n => ?_⟩
  have hsession : w.session n = {} := by
    unfold Workspace.session
    rw [hsessions]
    rfl
  show Session.Once (w.session n) _ [] []
  rw [hsession]
  refine ⟨?_, fun _ _ => rfl, fun _ => ⟨rfl, rfl⟩, fun _ => rfl, nofun⟩
  rw [Session.register_of_empty rfl]
  exact .empty

/-! ## The balance -/

/-- All sessions ended their units of work: each was committed or rolled back, and holds nothing. -/
structure Settled (c : Custody) : Prop where
  ended : ∀ n < c.workspace.sessions.length,
    (c.workspace.session n).commits + (c.workspace.session n).rollbacks = 1
  idle : ∀ n, (c.workspace.session n).holdings = ∅

theorem session_of_le (hn : c.workspace.sessions.length ≤ n) : c.workspace.session n = {} := by
  unfold Workspace.session
  rw [List.getElem?_eq_none hn]
  rfl

/-- Nothing is at a session that was never opened, and nothing was given out for it. -/
theorem InOrder.nothing_at (h : c.InOrder first) {p : Place} (hp : p.session? = some n)
    (hn : c.workspace.sessions.length ≤ n) : c.numbersAt p = [] := by
  obtain ⟨place, hplace⟩ := h.accounted
  have hsession := session_of_le hn
  cases p with
  | queue => cases hp
  | held m =>
    cases hp
    show (c.workspace.session n).holdings.keys = []
    rw [hsession]
    rfl
  | routed m r =>
    cases hp
    show ((c.workspace.session n).routedTo r).map _ = []
    rw [hsession]
    rfl
  | dropped m =>
    cases hp
    have hremoved := hplace.removed n
    rw [hsession] at hremoved
    exact List.eq_nil_of_length_eq_zero hremoved.symm
  | discarded m =>
    cases hp
    refine (h.once n).kept ?_
    rw [hsession]

theorem InOrder.issuedTo_of_le (h : c.InOrder first) (hn : c.workspace.sessions.length ≤ n) :
    c.issuedTo (some n) = [] := by
  have hsession := session_of_le hn
  refine List.eq_nil_iff_forall_not_mem.2 fun id hid => ?_
  rcases (h.once n).made (by rw [hsession]) id hid with hheld | hdiscarded
  · rw [hsession] at hheld
    cases hheld
  · rw [h.nothing_at rfl hn] at hdiscarded
    cases hdiscarded

/-- How many numbers were given out for sessions that were committed. -/
def madeForGood (c : Custody) : Nat :=
  ∑ n ∈ Finset.range c.workspace.sessions.length,
    if (c.workspace.session n).commits = 1 then (c.issuedTo (some n)).length else 0

/-- Sessions that are opened later have no part in what was committed before. -/
theorem InOrder.madeForGood_of_more (h : c.InOrder first) {w : Workspace}
    (hmore : c.workspace.sessions.length ≤ w.sessions.length)
    (hold : ∀ n < c.workspace.sessions.length, w.session n = c.workspace.session n) :
    (∑ n ∈ Finset.range w.sessions.length,
      if (w.session n).commits = 1 then (c.issuedTo (some n)).length else 0) = c.madeForGood := by
  refine (Finset.sum_subset (Finset.range_subset_range.2 hmore) fun n _ hn => ?_).symm.trans
    (Finset.sum_congr rfl fun n hn => ?_)
  · rw [h.issuedTo_of_le (Nat.le_of_not_lt (Finset.mem_range.not.1 hn))]
    exact ite_self _
  · rw [hold n (Finset.mem_range.1 hn)]

/-- Whatever has its key in a set is counted under its key. -/
theorem sum_length_filter {κ α : Type} [DecidableEq κ] {S : Finset κ} {l : List α} (key : α → κ)
    (h : ∀ e ∈ l, key e ∈ S) : (∑ k ∈ S, (l.filter fun e => key e = k).length) = l.length := by
  have hcard := Multiset.sum_count_eq_card (s := S) (m := ↑(l.map key)) (by
    intro k hk
    obtain ⟨e, he, rfl⟩ := List.mem_map.1 hk
    exact h e he)
  rw [Multiset.coe_card, List.length_map] at hcard
  rw [← hcard]
  refine Finset.sum_congr rfl fun k _ => ?_
  rw [Multiset.coe_count, List.count_eq_countP, List.countP_map, ← List.countP_eq_length_filter]
  exact List.countP_congr fun e _ => by simp

/-- Each number was given out for no session, or for one that was opened. -/
theorem InOrder.length_issued (h : c.InOrder first) : c.issued.length =
    (c.issuedTo none).length +
      ∑ n ∈ Finset.range c.workspace.sessions.length, (c.issuedTo (some n)).length := by
  have hask : ∀ e ∈ c.issued.map Prod.snd,
      e ∈ (Finset.range c.workspace.sessions.length).insertNone := by
    rintro (_ | n) hn
    · exact Finset.none_mem_insertNone
    · rw [Finset.some_mem_insertNone, Finset.mem_range]
      by_contra hle
      have hnone := h.issuedTo_of_le (Nat.le_of_not_lt hle)
      obtain ⟨e, he, hen⟩ := List.mem_map.1 hn
      have hmem : e.1 ∈ c.issuedTo (some n) :=
        List.mem_map.2 ⟨e, List.mem_filter.2 ⟨he, decide_eq_true hen⟩, rfl⟩
      rw [hnone] at hmem
      cases hmem
  have hlength (asker : Option Nat) :
      (c.issuedTo asker).length = (c.issued.filter fun e => e.2 = asker).length :=
    List.length_map _
  have hsum := sum_length_filter Prod.snd fun e he => hask _ (List.mem_map_of_mem he)
  rw [Finset.sum_insertNone] at hsum
  simp only [hlength]
  exact hsum.symm

/-- Each number that was given out is in one of the places that there are when nothing is held. -/
theorem InOrder.count (h : c.InOrder first) (hle : c.issued.length ≤ UInt64.size)
    (hidle : ∀ n, (c.workspace.session n).holdings = ∅) {relationships : Finset Text}
    (hall : ∀ r ∈ c.workspace.pool.relationships, r ∈ relationships) {id : UInt64}
    (hid : id ∈ c.numbers) :
    (c.numbersAt .queue).count id + ∑ n ∈ Finset.range c.workspace.sessions.length,
      ((∑ r ∈ relationships, (c.numbersAt (.routed n r)).count id) +
        (c.numbersAt (.dropped n)).count id + (c.numbersAt (.discarded n)).count id) = 1 := by
  obtain ⟨place, hplace⟩ := h.accounted
  obtain ⟨p, hp⟩ := (hplace.conserved hle).placed id hid
  have hthere : c.numbersAt p ≠ [] := by
    intro hnone
    have hone := hp p
    rw [hnone, if_pos rfl] at hone
    cases hone
  have hopened : ∀ m, p.session? = some m → m < c.workspace.sessions.length := fun m hm =>
    Nat.lt_of_not_le fun hge => hthere (h.nothing_at hm hge)
  simp only [hp]
  cases p with
  | queue => simp
  | held m =>
    refine absurd ?_ hthere
    show (c.workspace.session m).holdings.keys = []
    rw [hidle]
    rfl
  | routed m r =>
    have hr : r ∈ relationships := by
      by_contra hr
      refine hthere ?_
      show ((c.workspace.session m).routedTo r).map _ = []
      rw [(h.once m).declared r fun hm => hr (hall r hm)]
      rfl
    have hm := Finset.mem_range.2 (hopened m rfl)
    simp [ite_and, Finset.sum_ite_irrel, hm, hr]
  | dropped m =>
    have hm := Finset.mem_range.2 (hopened m rfl)
    simp [hm]
  | discarded m =>
    have hm := Finset.mem_range.2 (hopened m rfl)
    simp [hm]

/-- When nothing is held, there are as many flow files in all places as numbers were given out. -/
theorem InOrder.length_numbers (h : c.InOrder first) (hle : c.issued.length ≤ UInt64.size)
    (hidle : ∀ n, (c.workspace.session n).holdings = ∅) {relationships : Finset Text}
    (hall : ∀ r ∈ c.workspace.pool.relationships, r ∈ relationships) :
    (c.numbersAt .queue).length + ∑ n ∈ Finset.range c.workspace.sessions.length,
      ((∑ r ∈ relationships, (c.numbersAt (.routed n r)).length) +
        (c.numbersAt (.dropped n)).length + (c.numbersAt (.discarded n)).length) =
      c.issued.length := by
  obtain ⟨place, hplace⟩ := h.accounted
  have hconserved := hplace.conserved hle
  have hlength (p : Place) : (c.numbersAt p).length =
      ∑ id ∈ c.numbers.toFinset, (c.numbersAt p).count id := by
    have hcard := Multiset.sum_count_eq_card (s := c.numbers.toFinset) (m := ↑(c.numbersAt p))
      fun id hid => List.mem_toFinset.2 (hconserved.given p id hid)
    simp only [Multiset.coe_card, Multiset.coe_count] at hcard
    exact hcard.symm
  have hsum := Finset.sum_congr (Eq.refl c.numbers.toFinset) fun id hid =>
    h.count hle hidle hall (List.mem_toFinset.1 hid)
  rw [← Finset.card_eq_sum_ones, List.toFinset_card_of_nodup hconserved.nodup] at hsum
  rw [show c.issued.length = c.numbers.length from (List.length_map _).symm, ← hsum]
  simp only [hlength, Finset.sum_add_distrib]
  simp only [Finset.sum_comm (s := c.numbers.toFinset)]

/-- What a session forgot is what it made, unless it was committed, and else nothing. -/
theorem InOrder.length_discarded (h : c.InOrder first) (hle : c.issued.length ≤ UInt64.size)
    (hsettled : c.Settled) (hn : n < c.workspace.sessions.length) :
    (c.numbersAt (.discarded n)).length =
      if (c.workspace.session n).commits = 1 then 0 else (c.issuedTo (some n)).length := by
  obtain ⟨place, hplace⟩ := h.accounted
  have hconserved := hplace.conserved hle
  have hended := hsettled.ended n hn
  split
  · rw [(h.once n).kept (by omega)]
    rfl
  · rename_i hcommitted
    have hcommits : (c.workspace.session n).commits = 0 := by omega
    have hissued : (c.issuedTo (some n)).Nodup :=
      hconserved.nodup.sublist (List.filter_sublist.map _)
    have hdiscarded : (c.numbersAt (.discarded n)).Nodup := by
      refine List.nodup_iff_count_le_one.2 fun id => ?_
      rw [hplace.located]
      split <;> simp
    refine ((List.perm_ext_iff_of_nodup hdiscarded hissued).2 fun id => ⟨fun hid => ?_, fun hid =>
      ?_⟩).length_eq
    · exact List.mem_map.2 ⟨(id, some n),
        List.mem_filter.2 ⟨hconserved.origin n id hid, decide_eq_true rfl⟩, rfl⟩
    · refine ((h.once n).made hcommits id hid).resolve_left fun hheld => ?_
      rw [hsettled.idle] at hheld
      cases hheld

/-- **What came in is where it went.**  The flow files that were queued, and those that were made by
sessions that were committed, are in the queue, with a relationship or given up. -/
theorem InOrder.balance (h : c.InOrder first) (hle : c.issued.length ≤ UInt64.size)
    (hsettled : c.Settled) (hremembered : c.workspace.forgotten = 0) (relationships : Finset Text)
    (hall : ∀ r ∈ c.workspace.pool.relationships, r ∈ relationships) :
    (c.issuedTo none).length + c.madeForGood = c.workspace.pool.queue.flowFiles.length +
        (∑ r ∈ relationships, (c.workspace.routedTo r).length) + c.workspace.removedCount := by
  obtain ⟨place, hplace⟩ := h.accounted
  have hcreated : c.workspace.created =
      (List.range c.workspace.sessions.length).map c.workspace.session := by
    unfold Workspace.created
    rw [hremembered, List.drop_zero]
    exact c.workspace.sessions_eq
  have hrouted (r : Text) : (c.workspace.routedTo r).length =
      ∑ n ∈ Finset.range c.workspace.sessions.length, (c.numbersAt (.routed n r)).length := by
    simp only [numbersAt, List.length_map]
    unfold Workspace.routedTo
    rw [List.length_mergeSort, List.length_flatMap, hcreated, List.map_map]
    rfl
  have hremoved : c.workspace.removedCount =
      ∑ n ∈ Finset.range c.workspace.sessions.length, (c.numbersAt (.dropped n)).length := by
    have hsum (l : List Session) :
        l.foldr (fun s n => s.removedCount + n) 0 = (l.map (·.removedCount)).sum := by
      induction l with
      | nil => rfl
      | cons s rest ih => rw [List.foldr_cons, ih, List.map_cons, List.sum_cons]
    unfold Workspace.removedCount
    rw [hsum, hcreated, List.map_map]
    show (∑ n ∈ Finset.range _, (c.workspace.session n).removedCount) = _
    exact Finset.sum_congr rfl fun n _ => hplace.removed n
  have hqueue : (c.numbersAt .queue).length = c.workspace.pool.queue.flowFiles.length :=
    List.length_map _
  have hissued := h.length_issued
  have hnumbers := h.length_numbers hle hsettled.idle hall
  -- of what a session was given numbers for, all was forgotten or nothing
  have hsplit : (∑ n ∈ Finset.range c.workspace.sessions.length, (c.issuedTo (some n)).length) =
      c.madeForGood +
      ∑ n ∈ Finset.range c.workspace.sessions.length, (c.numbersAt (.discarded n)).length := by
    unfold madeForGood
    rw [← Finset.sum_add_distrib]
    refine Finset.sum_congr rfl fun n hn => ?_
    rw [h.length_discarded hle hsettled (Finset.mem_range.1 hn)]
    split <;> simp
  simp only [Finset.sum_add_distrib] at hnumbers
  simp only [hrouted, hremoved]
  rw [Finset.sum_comm] at hnumbers
  omega

end Custody

end ProcessorBench
