import ProcessorBench.Proofs.Session.Distinct
import ProcessorBench.Proofs.Session.Develop

/-!
# What a session lets go of

Where a unit of work ends, the session holds nothing any more.  Its handles are turned away from
then on, unless the flow files are taken again; those that went nowhere in hand never come back.

* `Workspace.undo`, `Workspace.publish` — the two ends of a unit of work.
* `Session.Idle` — nothing is pending; to end a unit of work once more is only counted.
* `Workspace.Distinct.gone_of_release`, `Workspace.Distinct.gone_foldl` — a number that is not in
  hand stays out.
* `Workspace.Distinct.rejected_of_not_polled` — a session turns handles away until it polls them
  again.
-/

set_option autoImplicit false

namespace ProcessorBench

open Program (Call recent)

/-- Nothing is pending in the session. -/
structure Session.Idle (s : Session) : Prop where
  holdings : s.holdings = ∅
  counters : s.counters = ∅
  events : s.events = []

theorem Queue.offerAll_nil (q : Queue) : q.offerAll [] = q := by
  unfold offerAll
  rw [List.append_nil]

namespace Scope

variable {s : Scope}

/-- A commit of nothing is only counted. -/
theorem publish_of_idle (h : s.session.Idle) :
    s.publish = { s with session := { s.session with commits := s.session.commits + 1 } } := by
  obtain ⟨session, pool⟩ := s
  obtain ⟨holdings, counters, events, routed, removedCount, commits, rollbacks⟩ := session
  obtain ⟨rfl, rfl, rfl⟩ := h
  have hprovenance : pool.provenance ++ [] = pool.provenance := List.append_nil _
  show Scope.mk _ { pool with
    provenance := pool.provenance ++ [], queue := pool.queue.offerAll [] } = _
  rw [Queue.offerAll_nil, hprovenance]
  rfl

/-- A rollback of nothing is only counted. -/
theorem rollback_of_idle (h : s.session.Idle) :
    s.rollback = { s with session := { s.session with rollbacks := s.session.rollbacks + 1 } } := by
  obtain ⟨session, pool⟩ := s
  obtain ⟨holdings, counters, events, routed, removedCount, commits, rollbacks⟩ := session
  obtain ⟨rfl, rfl, rfl⟩ := h
  show Scope.mk _ { pool with queue := pool.queue.offerAll [] } = _
  rw [Queue.offerAll_nil]
  rfl

end Scope

namespace Workspace

variable {w : Workspace} {n : Nat}

/-- A session that worked is open as before. -/
theorem isOpen_resume (hn : n < w.sessions.length) (s : Scope) :
    n < (w.resume n s).sessions.length := by
  unfold resume
  rwa [List.length_set]

/-- The workspace after a rollback of the session. -/
def undo (w : Workspace) (n : Nat) : Workspace :=
  w.resume n (Scope.rollback ⟨w.session n, w.pool⟩)

/-- The workspace after a commit of the session that was only counted. -/
def countCommit (w : Workspace) (n : Nat) : Workspace :=
  w.resume n ⟨{ w.session n with commits := (w.session n).commits + 1 }, w.pool⟩

/-- The workspace after a rollback of the session that was only counted. -/
def countRollback (w : Workspace) (n : Nat) : Workspace :=
  w.resume n ⟨{ w.session n with rollbacks := (w.session n).rollbacks + 1 }, w.pool⟩

theorem perform_rollback (hn : n < w.sessions.length) :
    w.perform n .rollback = (some (.ok .done), w.undo n) := by
  unfold perform
  rw [scope?_of_lt hn]
  rfl

/-- **Where nothing is pending, a commit changes nothing but its count.** -/
theorem perform_commit_of_idle (hn : n < w.sessions.length) (h : (w.session n).Idle) :
    w.perform n .commit = (some (.ok .done), w.countCommit n) := by
  have hdecided : (w.session n).undecided? = none := by
    unfold Session.undecided?
    rw [h.holdings]
    rfl
  have hcommit := Committable.perform ⟨hn, hdecided⟩
  unfold publish at hcommit
  rwa [Scope.publish_of_idle (s := ⟨w.session n, w.pool⟩) h] at hcommit

/-- **Where nothing is pending, a rollback changes nothing but its count.** -/
theorem perform_rollback_of_idle (hn : n < w.sessions.length) (h : (w.session n).Idle) :
    w.perform n .rollback = (some (.ok .done), w.countRollback n) := by
  rw [perform_rollback hn]
  unfold undo
  rw [Scope.rollback_of_idle (s := ⟨w.session n, w.pool⟩) h]
  rfl

theorem session_undo (hn : n < w.sessions.length) (m : Nat) :
    (w.undo n).session m =
      if m = n then (Scope.rollback ⟨w.session n, w.pool⟩).session else w.session m :=
  session_resume hn _ m

theorem idle_publish (hn : n < w.sessions.length) : ((w.publish n).session n).Idle := by
  rw [session_publish hn, if_pos rfl]
  exact ⟨rfl, rfl, rfl⟩

theorem idle_undo (hn : n < w.sessions.length) : ((w.undo n).session n).Idle := by
  rw [session_undo hn, if_pos rfl]
  exact ⟨rfl, rfl, rfl⟩

/-! ## Flow files that are not in hand -/

/-- A session that was never opened holds nothing. -/
theorem isOpen_of_held {id : UInt64} {h : Holding} (hg : (w.session n).holdings.get? id = some h) :
    n < w.sessions.length := by
  by_contra hn
  unfold session at hg
  rw [List.getElem?_eq_none (Nat.le_of_not_lt hn)] at hg
  cases hg

/-- What a session holds is in hand. -/
theorem mem_inHand_of_held {id : UInt64} {h : Holding}
    (hg : (w.session n).holdings.get? id = some h) : id ∈ w.inHand := by
  have hn := isOpen_of_held hg
  refine List.mem_append_right _ (List.mem_flatMap.2 ⟨w.session n, ?_, ?_⟩)
  · unfold session
    rw [List.getElem?_eq_getElem hn]
    exact List.getElem_mem hn
  · rw [Table.mem_keys, hg]
    rfl

theorem held_of_not_mem_inHand {f : FlowFile} (hf : f.id ∉ w.inHand) (n : Nat) :
    (w.session n).held f = .error (.flowFile (.notHeld f.id)) := by
  refine Session.held_of_none ?_
  cases hg : (w.session n).holdings.get? f.id with
  | none => rfl
  | some h => exact absurd (mem_inHand_of_held hg) hf

/-- **What a session lets go of and does not put back into the queue is not in hand any more.** -/
theorem Distinct.gone_of_release (h : w.Distinct) (hn : n < w.sessions.length) {t : Scope}
    {fs : List FlowFile} (hholdings : t.session.holdings = ∅)
    (hqueue : t.pool.queue.flowFiles = w.pool.queue.flowFiles ++ fs) {id : UInt64}
    (hid : id ∈ (w.session n).holdings.keys) (hfs : id ∉ fs.map (·.id)) :
    id ∉ (w.resume n t).inHand := by
  have hs := scope?_of_lt hn
  have hbefore := (inHand_perm hs).nodup_iff.1 h.nodup
  unfold Scope.inHand at hbefore
  obtain ⟨hscope, -, hothers⟩ := List.nodup_append.1 hbefore
  obtain ⟨-, -, hown⟩ := List.nodup_append.1 hscope
  rw [(inHand_resume hn t).mem_iff, List.mem_append]
  unfold Scope.inHand
  rw [hholdings, hqueue, show (∅ : Table UInt64 Holding).keys = [] from rfl, List.append_nil,
    List.map_append]
  rintro (hm | hm)
  · rcases List.mem_append.1 hm with hm | hm
    · exact hown id hm id hid rfl
    · exact hfs hm
  · exact hothers id (List.mem_append_right _ hid) id hm rfl

/-- **A number that was given out and is not in hand stays out**, as long as numbers are left. -/
theorem Distinct.gone_foldl (h : w.Distinct) {id : UInt64} (hgone : id ∉ w.inHand)
    (hid : id < w.pool.supply.nextId) (events : List Event)
    (hlt : w.pool.supply.nextId.toNat + (Custody.after w events).issued.length < UInt64.size) :
    id ∉ (events.foldl Workspace.handle w).inHand := by
  induction events generalizing w with
  | nil => exact hgone
  | cons e rest ih =>
    have hissued : (Custody.after w (e :: rest)).issued.length =
        (w.issues e).length + (Custody.after (w.handle e) rest).issued.length :=
      length_issued_foldl_step (Custody.step { workspace := w } e) rest
    rw [hissued] at hlt
    obtain ⟨hdistinct, hnext⟩ := h.handle e (by omega)
    refine ih hdistinct ?_ ?_ (by omega)
    · rcases h.handle_inHand e with ⟨hsub, -⟩ | ⟨hperm, -⟩
      · exact fun hm => hgone (hsub.subset hm)
      · intro hm
        -- the only number that can come in hand is the next one
        rcases List.mem_cons.1 (hperm.mem_iff.1 hm) with rfl | hm
        · exact absurd hid (UInt64.lt_irrefl _)
        · exact hgone hm
    · rw [UInt64.lt_iff_toNat_lt] at hid ⊢
      omega

/-- A call that takes no number keeps flow files apart. -/
theorem Distinct.of_perform {v : Workspace} (h : w.Distinct) {op : Operation}
    (hperform : (w.perform n op).2 = v) (hnext : v.pool.supply.nextId = w.pool.supply.nextId) :
    v.Distinct := by
  subst hperform
  have hnone : w.issues (.call n op) = [] := if_pos hnext
  exact (h.handle (.call n op) (by rw [hnone]; exact w.pool.supply.nextId.toNat_lt)).1

/-! ## Calls in a row of events -/

/-- Each call was made at some point between the events. -/
theorem exists_of_mem_calls {events : List Event} {c : Nat × Call} (hc : c ∈ w.calls events) :
    ∃ before op later s, events = before ++ .call c.1 op :: later ∧
      (before.foldl handle w).scope? c.1 = some s ∧ c.2 = (op, (op.run s).1) := by
  induction events generalizing w with
  | nil => cases hc
  | cons e rest ih =>
    rw [calls, List.mem_append] at hc
    rcases hc with hc | hc
    · cases e with
      | openSession | enqueue => cases hc
      | call m op =>
        cases hs : w.scope? m with
        | none =>
          rw [answered_call_of_none hs] at hc
          cases hc
        | some s =>
          rw [answered_call hs] at hc
          obtain rfl := List.mem_singleton.1 hc
          exact ⟨[], op, rest, s, rfl, hs, rfl⟩
    · obtain ⟨before, op, later, s, rfl, hs, hcall⟩ := ih hc
      exact ⟨e :: before, op, later, s, rfl, hs, hcall⟩

theorem length_issued_append (w : Workspace) (events events' : List Event) :
    (Custody.after w (events ++ events')).issued.length =
      (Custody.after w events).issued.length +
        (Custody.after (events.foldl handle w) events').issued.length := by
  unfold Custody.after
  rw [List.foldl_append, length_issued_foldl_step, Custody.workspace_foldl]
  rfl

/-- Before and after each call of a row of events flow files are told apart, and the next number
only grows. -/
theorem Distinct.of_mem_calls (h : w.Distinct) {events : List Event}
    (hlt : w.pool.supply.nextId.toNat + (Custody.after w events).issued.length < UInt64.size)
    {c : Nat × Call} (hc : c ∈ w.calls events) :
    ∃ (v : Workspace) (s : Scope) (op : Operation), v.Distinct ∧ v.scope? c.1 = some s ∧
      c.2 = (op, (op.run s).1) ∧ (v.resume c.1 (op.run s).2).Distinct ∧
      w.pool.supply.nextId ≤ v.pool.supply.nextId ∧
      (op.run s).2.pool.supply.nextId ≤
        (events.foldl Workspace.handle w).pool.supply.nextId := by
  obtain ⟨before, op, later, s, rfl, hs, hcall⟩ := exists_of_mem_calls hc
  have hsplit : before ++ Event.call c.1 op :: later = before ++ [.call c.1 op] ++ later := by simp
  have hmid := length_issued_append w before (.call c.1 op :: later)
  have hlater := length_issued_append w (before ++ [.call c.1 op]) later
  rw [← hsplit] at hlater
  obtain ⟨hv, hvnext⟩ := h.foldl before (by omega)
  obtain ⟨hv', hvnext'⟩ := h.foldl (before ++ [.call c.1 op]) (by omega)
  obtain ⟨-, hend⟩ := h.foldl (before ++ .call c.1 op :: later) hlt
  have hafter : (before ++ [Event.call c.1 op]).foldl Workspace.handle w =
      (before.foldl Workspace.handle w).resume c.1 (op.run s).2 := by
    rw [List.foldl_append, List.foldl_cons, List.foldl_nil, handle_call hs]
  rw [hafter] at hv' hvnext'
  refine ⟨_, s, op, hv, hs, hcall, hv', ?_, ?_⟩
  · rw [UInt64.le_iff_toNat_le]
    omega
  · rw [UInt64.le_iff_toNat_le]
    have hpool : ((before.foldl Workspace.handle w).resume c.1 (op.run s).2).pool =
      (op.run s).2.pool := rfl
    rw [hpool] at hvnext'
    omega

/-- The numbers of all flow files that calls answered were given out. -/
theorem Distinct.answered_lt (h : w.Distinct) {events : List Event}
    (hlt : w.pool.supply.nextId.toNat + (Custody.after w events).issued.length < UInt64.size)
    {c : Nat × Call} (hc : c ∈ w.calls events) {f : FlowFile} (hf : f ∈ c.2.answered) :
    f.id < (events.foldl Workspace.handle w).pool.supply.nextId := by
  obtain ⟨v, s, op, hv, hs, hcall, hv', -, hle⟩ := h.of_mem_calls hlt hc
  rw [hcall] at hf
  have hheld := Operation.run_answered_held (hv.scope hs).1 hf
  obtain ⟨g, hg⟩ := Option.isSome_iff_exists.1 hheld
  refine UInt64.lt_of_lt_of_le (hv'.below f.id ?_) hle
  refine mem_inHand_of_held (n := c.1) (h := g) ?_
  rw [session_resume (scope?_eq_some hs).1, if_pos rfl]
  exact hg

/-- Calls make flow files under numbers that had not been given out. -/
theorem Distinct.le_made (h : w.Distinct) {events : List Event}
    (hlt : w.pool.supply.nextId.toNat + (Custody.after w events).issued.length < UInt64.size)
    {c : Nat × Call} (hc : c ∈ w.calls events) {f : FlowFile} (hf : f ∈ c.2.made) :
    w.pool.supply.nextId ≤ f.id := by
  obtain ⟨v, s, op, hv, hs, hcall, -, hle, -⟩ := h.of_mem_calls hlt hc
  rw [hcall] at hf
  obtain ⟨fs, htakes⟩ | ⟨g, kind, details, hmakes⟩ | hrests := op.course s
  · rw [htakes.made] at hf
    cases hf
  · rw [hmakes.made] at hf
    rw [List.mem_singleton.1 hf, hmakes.number, (scope?_eq_some hs).2.2]
    exact hle
  · rw [hrests.made] at hf
    cases hf

/-! ## Handles that are turned away -/

theorem perform_rejected (hn : n < w.sessions.length) (hkeyed : (w.session n).Keyed)
    {op : Operation} {f : FlowFile} (hf : f ∈ op.names) {e : Error}
    (hheld : (w.session n).held f = .error e) :
    ∃ r, (w.perform n op).1 = some r ∧ op.Refuses r := by
  unfold perform
  rw [scope?_of_lt hn]
  exact ⟨_, rfl, Operation.run_rejected (s := ⟨w.session n, w.pool⟩) hkeyed hf hheld⟩

theorem mem_calls_of_mem_callsTo {l : List (Nat × Call)} {e : Call} (he : e ∈ callsTo n l) :
    (n, e) ∈ l := by
  unfold callsTo at he
  obtain ⟨⟨m, d⟩, hd, rfl⟩ := List.mem_map.1 he
  obtain ⟨hmem, hm⟩ := List.mem_filter.1 hd
  obtain rfl : m = n := by simpa using hm
  exact hmem

theorem length_sessions_handle (w : Workspace) (e : Event) :
    w.sessions.length ≤ (w.handle e).sessions.length := by
  cases e with
  | openSession => simp [handle, openSession]
  | enqueue bytes attributes =>
    obtain ⟨f, supply, henqueue, -⟩ := w.enqueueBytes_eq bytes attributes
    show _ ≤ (w.enqueueBytes bytes attributes).sessions.length
    rw [henqueue]
  | call n op =>
    cases hs : w.scope? n with
    | none => rw [handle_call_of_none hs]
    | some s =>
      rw [handle_call hs]
      simp [resume]

/-- A session stays open. -/
theorem length_sessions_foldl (w : Workspace) (events : List Event) :
    w.sessions.length ≤ (events.foldl handle w).sessions.length := by
  induction events generalizing w with
  | nil => exact Nat.le_refl _
  | cons e rest ih => exact Nat.le_trans (w.length_sessions_handle e) (ih _)

/-- **A session that holds nothing turns handles away until it polls the flow files again**, as long
as numbers are left. -/
theorem Distinct.rejected_of_not_polled (h : w.Distinct) (hn : n < w.sessions.length)
    (hidle : (w.session n).holdings = ∅) (events : List Event)
    (hlt : w.pool.supply.nextId.toNat + (Custody.after w events).issued.length < UInt64.size)
    {f : FlowFile} (hid : f.id < w.pool.supply.nextId)
    (hpolled : ∀ e ∈ callsTo n (w.calls events), ∀ g ∈ e.polled, g.id ≠ f.id)
    {op : Operation} (hf : f ∈ op.names) :
    ∃ r, ((events.foldl Workspace.handle w).perform n op).1 = some r ∧ op.Refuses r := by
  have hreflects := Session.reflects.foldl (.of_empty hidle) events
  have hopen := Nat.lt_of_lt_of_le hn (length_sessions_foldl w events)
  refine perform_rejected hopen hreflects.keyed hf (Session.held_of_none ?_)
  rw [← Option.not_isSome_iff_eq_none, hreflects.held]
  intro hm
  obtain ⟨g, hg, hgid⟩ := List.mem_map.1 hm
  obtain ⟨e, he, hg⟩ := List.mem_flatMap.1 hg
  have he : e ∈ callsTo n (w.calls events) := (List.rtakeWhile_suffix _ _).subset he
  rw [Call.obtained_eq, List.mem_append] at hg
  rcases hg with hg | hg
  · exact hpolled e he g hg hgid
  · -- a flow file that was made has a new number
    have hle := h.le_made hlt (mem_calls_of_mem_callsTo he) hg
    rw [hgid] at hle
    exact absurd (UInt64.lt_of_lt_of_le hid hle) (UInt64.lt_irrefl _)

end Workspace

end ProcessorBench
