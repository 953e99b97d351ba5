import ProcessorBench.Proofs.Session.Custody
import ProcessorBench.Proofs.Session.InHand
import ProcessorBench.Proofs.Session.Unit
import Mathlib.Data.List.Perm.Basic

/-!
# Flow files that are told apart

Sessions tell flow files apart by number.  If all flow files of a workspace, queued or held, have
different numbers, all below the next one (`Workspace.Distinct`), then this stays so as long as
numbers are left (`Workspace.Distinct.handle`), and what a session takes and makes in one unit of
work has different numbers (`Workspace.obtained_nodup`).
-/

set_option autoImplicit false

namespace ProcessorBench

open Program (Call recent)

namespace Scope

variable {s : Scope}

/-- Where a unit of work ends, flow files that were held may go back to the queue. -/
theorem inHand_sublist {t : Scope} {fs : List FlowFile} (hheld : t.session.holdings = ∅)
    (hqueue : t.pool.queue.flowFiles = s.pool.queue.flowFiles ++ fs)
    (hfs : (fs.map (·.id)).Sublist s.session.holdings.keys) : t.inHand.Sublist s.inHand := by
  unfold inHand
  rw [hheld, hqueue, List.map_append, List.append_assoc]
  refine List.Sublist.append_left ?_ _
  rwa [show (∅ : Table UInt64 Holding).keys = [] from rfl, List.append_nil]

/-- **A call adds the next number to those in hand, or none.** -/
theorem run_inHand (op : Operation) (hs : s.session.Keyed) (hdistinct : s.inHand.Nodup)
    (hfresh : s.pool.supply.nextId ∉ s.inHand) :
    ((op.run s).2.inHand.Subperm s.inHand ∧
      (op.run s).2.pool.supply.nextId = s.pool.supply.nextId) ∨
    ((op.run s).2.inHand.Perm (s.pool.supply.nextId :: s.inHand) ∧
      (op.run s).2.pool.supply.nextId = s.pool.supply.nextId + 1) := by
  cases hop : op.settles with
  | false =>
    have heffect := op.effect hop s
    generalize (op.run s).2 = s' at heffect
    cases heffect with
    | works hw =>
      obtain ⟨hperm, hnext⟩ := hw.inHand_perm hs hdistinct
      exact .inl ⟨hperm.subperm, hnext⟩
    | creates hc => exact .inr (hc.inHand_perm hfresh)
    | forgets _ => exact .inl ⟨.refl _, rfl⟩
  | true =>
    obtain rfl | rfl := Operation.commit_or_rollback hop
    · obtain ⟨-, hrun⟩ | ⟨e, hrun⟩ := Operation.run_commit s
      · rw [hrun]
        refine .inl ⟨(inHand_sublist (t := s.publish) rfl rfl ?_).subperm, rfl⟩
        rw [Session.returning_ids hs]
        exact numbers_sublist _ _
      · rw [hrun]
        exact .inl ⟨.refl _, rfl⟩
    · refine .inl ⟨(inHand_sublist (t := s.rollback) rfl rfl ?_).subperm, rfl⟩
      rw [Session.taken_ids hs]
      exact numbers_sublist _ _

end Scope

namespace Workspace

/-- The numbers of all flow files that are in the queue or held by a session. -/
def inHand (w : Workspace) : List UInt64 :=
  w.pool.queue.flowFiles.map (·.id) ++ w.sessions.flatMap (·.holdings.keys)

/-- All flow files have different numbers, below the next one, and each is held under its own. -/
structure Distinct (w : Workspace) : Prop where
  keyed : ∀ n, (w.session n).Keyed
  nodup : w.inHand.Nodup
  below : ∀ id ∈ w.inHand, id < w.pool.supply.nextId

variable {w : Workspace} {n : Nat} {s : Scope}

/-- What is in hand: that of one session and its queue, and what the other sessions hold. -/
theorem inHand_resume (hn : n < w.sessions.length) (s : Scope) :
    (w.resume n s).inHand.Perm
      (s.inHand ++ (w.sessions.eraseIdx n).flatMap (·.holdings.keys)) := by
  show (_ ++ (w.sessions.set n s.session).flatMap _).Perm _
  unfold Scope.inHand
  rw [List.append_assoc]
  exact ((List.set_perm_cons_eraseIdx hn s.session).flatMap_right _).append_left _

theorem inHand_perm (hs : w.scope? n = some s) :
    w.inHand.Perm (s.inHand ++ (w.sessions.eraseIdx n).flatMap (·.holdings.keys)) := by
  have hperm := inHand_resume (scope?_eq_some hs).1 s
  rwa [resume_self hs] at hperm

/-- Where nothing is held, the flow files that wait are to have different numbers. -/
theorem Distinct.of_idle (hheld : ∀ s ∈ w.sessions, s.holdings = ∅)
    (hnodup : (w.pool.queue.flowFiles.map (·.id)).Nodup)
    (hbelow : ∀ f ∈ w.pool.queue.flowFiles, f.id < w.pool.supply.nextId) : w.Distinct := by
  have hhand : w.inHand = w.pool.queue.flowFiles.map (·.id) := by
    have hnone : w.sessions.flatMap (·.holdings.keys) = [] :=
      List.flatMap_eq_nil_iff.2 fun s hs => by
        rw [hheld s hs]
        rfl
    unfold inHand
    rw [hnone, List.append_nil]
  refine ⟨fun n => .of_empty ?_, hhand ▸ hnodup, fun id hid => ?_⟩
  · unfold session
    cases hs : w.sessions[n]? with
    | none => rfl
    | some s => exact hheld s (List.mem_of_getElem? hs)
  · rw [hhand] at hid
    obtain ⟨f, hf, rfl⟩ := List.mem_map.1 hid
    exact hbelow f hf

theorem Distinct.fresh (h : w.Distinct) : w.pool.supply.nextId ∉ w.inHand := fun hm =>
  absurd (h.below _ hm) (UInt64.lt_irrefl _)

/-- The flow files of a single session with its queue are told apart as well. -/
theorem Distinct.scope (h : w.Distinct) (hs : w.scope? n = some s) :
    s.session.Keyed ∧ s.inHand.Nodup ∧ s.pool.supply.nextId ∉ s.inHand := by
  obtain ⟨-, hsession, hpool⟩ := scope?_eq_some hs
  have hperm := inHand_perm hs
  refine ⟨?_, (List.nodup_append.1 (hperm.nodup_iff.1 h.nodup)).1, fun hm => ?_⟩
  · rw [hsession]
    exact h.keyed n
  · rw [hpool] at hm
    exact h.fresh (hperm.mem_iff.2 (List.mem_append_left _ hm))

theorem Distinct.keyed_resume (h : w.Distinct) (hn : n < w.sessions.length)
    (hs : s.session.Keyed) (m : Nat) : ((w.resume n s).session m).Keyed := by
  rw [session_resume hn]
  split
  · exact hs
  · exact h.keyed m

/-- The numbers in hand stay apart if some of them go. -/
theorem Distinct.of_subperm {v : Workspace} (h : w.Distinct) (hkeyed : ∀ n, (v.session n).Keyed)
    (hsub : v.inHand.Subperm w.inHand)
    (hnext : v.pool.supply.nextId = w.pool.supply.nextId) : v.Distinct where
  keyed := hkeyed
  nodup := by
    obtain ⟨ids, hperm, hsublist⟩ := hsub
    exact hperm.nodup_iff.1 (h.nodup.sublist hsublist)
  below id hid := by
    rw [hnext]
    exact h.below id (hsub.subset hid)

/-- They stay apart if the next number joins them, as long as there is one after it. -/
theorem Distinct.of_perm_cons {v : Workspace} (h : w.Distinct) (hkeyed : ∀ n, (v.session n).Keyed)
    (hperm : v.inHand.Perm (w.pool.supply.nextId :: w.inHand))
    (hnext : v.pool.supply.nextId = w.pool.supply.nextId + 1)
    (hlt : w.pool.supply.nextId.toNat + 1 < UInt64.size) :
    v.Distinct ∧ v.pool.supply.nextId.toNat = w.pool.supply.nextId.toNat + 1 := by
  have htoNat : v.pool.supply.nextId.toNat = w.pool.supply.nextId.toNat + 1 := by
    rw [hnext, UInt64.toNat_add]
    exact Nat.mod_eq_of_lt hlt
  refine ⟨⟨hkeyed, hperm.nodup_iff.2 (List.nodup_cons.2 ⟨h.fresh, h.nodup⟩), ?_⟩, htoNat⟩
  intro id hid
  rw [UInt64.lt_iff_toNat_lt, htoNat]
  rcases List.mem_cons.1 (hperm.mem_iff.1 hid) with rfl | hid
  · exact Nat.lt_succ_self _
  · exact Nat.lt_succ_of_lt (UInt64.lt_iff_toNat_lt.1 (h.below id hid))

theorem handle_call (hs : w.scope? n = some s) (op : Operation) :
    w.handle (.call n op) = w.resume n (op.run s).2 := by
  simp [handle, perform, hs]

theorem handle_call_of_none (hs : w.scope? n = none) (op : Operation) :
    w.handle (.call n op) = w := by
  simp [handle, perform, hs]

theorem answered_call (hs : w.scope? n = some s) (op : Operation) :
    w.answered (.call n op) = [(n, op, (op.run s).1)] := by
  simp [answered, perform, hs]

theorem answered_call_of_none (hs : w.scope? n = none) (op : Operation) :
    w.answered (.call n op) = [] := by
  simp [answered, perform, hs]

/-- **An event adds the next number to those in hand, or none.** -/
theorem Distinct.handle_inHand (h : w.Distinct) (e : Event) :
    ((w.handle e).inHand.Subperm w.inHand ∧
      (w.handle e).pool.supply.nextId = w.pool.supply.nextId) ∨
    ((w.handle e).inHand.Perm (w.pool.supply.nextId :: w.inHand) ∧
      (w.handle e).pool.supply.nextId = w.pool.supply.nextId + 1) := by
  cases e with
  | openSession =>
    have hsame : w.openSession.2.inHand = w.inHand := by
      unfold inHand openSession
      rw [List.flatMap_append]
      exact congrArg _ (List.append_nil _)
    exact .inl ⟨(List.Perm.of_eq hsame).subperm, rfl⟩
  | enqueue bytes attributes =>
    obtain ⟨f, supply, henqueue, hid, hnext⟩ := w.enqueueBytes_eq bytes attributes
    refine .inr ?_
    show (w.enqueueBytes bytes attributes).inHand.Perm _ ∧
      (w.enqueueBytes bytes attributes).pool.supply.nextId = _
    rw [henqueue, ← hid]
    refine ⟨?_, hnext.trans (congrArg (· + 1) hid.symm)⟩
    unfold inHand Queue.offer
    rw [List.map_append, List.map_singleton, List.append_assoc, List.singleton_append]
    exact List.perm_middle
  | call n op =>
    cases hs : w.scope? n with
    | none =>
      rw [handle_call_of_none hs]
      exact .inl ⟨.refl _, rfl⟩
    | some s =>
      obtain ⟨hn, -, hpool⟩ := scope?_eq_some hs
      obtain ⟨hkeyed, hdistinct, hfresh⟩ := h.scope hs
      have hothers := inHand_resume hn (op.run s).2
      have hbefore := inHand_perm hs
      rw [handle_call hs, ← hpool]
      rcases Scope.run_inHand op hkeyed hdistinct hfresh with ⟨hsub, hnext⟩ | ⟨hperm, hnext⟩
      · refine .inl ⟨?_, hnext⟩
        exact hothers.subperm.trans
          (((List.subperm_append_right _).2 hsub).trans hbefore.symm.subperm)
      · refine .inr ⟨?_, hnext⟩
        exact hothers.trans ((hperm.append_right _).trans (hbefore.symm.cons _))

theorem Distinct.keyed_handle (h : w.Distinct) (e : Event) (m : Nat) :
    ((w.handle e).session m).Keyed := by
  cases e with
  | openSession =>
    show (w.openSession.2.session m).Keyed
    rw [session_openSession]
    exact h.keyed m
  | enqueue bytes attributes =>
    obtain ⟨f, supply, henqueue, -⟩ := w.enqueueBytes_eq bytes attributes
    show ((w.enqueueBytes bytes attributes).session m).Keyed
    rw [henqueue]
    exact h.keyed m
  | call n op =>
    cases hs : w.scope? n with
    | none =>
      rw [handle_call_of_none hs]
      exact h.keyed m
    | some s =>
      rw [handle_call hs]
      exact h.keyed_resume (scope?_eq_some hs).1 (op.run_keyed (h.scope hs).1) m

/-- **Flow files stay apart in every event**, as long as numbers are left. -/
theorem Distinct.handle (h : w.Distinct) (e : Event)
    (hlt : w.pool.supply.nextId.toNat + (w.issues e).length < UInt64.size) :
    (w.handle e).Distinct ∧ (w.handle e).pool.supply.nextId.toNat =
      w.pool.supply.nextId.toNat + (w.issues e).length := by
  rcases h.handle_inHand e with ⟨hsub, hnext⟩ | ⟨hperm, hnext⟩
  · have hnone : w.issues e = [] := if_pos hnext
    rw [hnone, hnext]
    exact ⟨h.of_subperm (h.keyed_handle e) hsub hnext, rfl⟩
  · have hone : w.issues e = [(w.pool.supply.nextId, e.session?)] := by
      refine if_neg ?_
      rw [hnext]
      exact Supply.succ_ne _
    rw [hone] at hlt ⊢
    exact h.of_perm_cons (h.keyed_handle e) hperm hnext hlt

end Workspace

/-! ## What one unit of work takes and makes -/

/-- What a call takes and makes is not held yet, as long as the flow files of the session and of its
queue are told apart. -/
theorem Session.Reflects.obtained_nodup {s : Scope} {calls : List Call}
    (h : s.session.Reflects calls) (hdistinct : s.inHand.Nodup)
    (hfresh : s.pool.supply.nextId ∉ s.inHand)
    (hcalls : ((calls.flatMap Call.obtained).map (·.id)).Nodup) {op : Operation} :
    (((calls ++ [(op, (op.run s).1)]).flatMap Call.obtained).map (·.id)).Nodup := by
  have hheld : ∀ id ∈ (calls.flatMap Call.obtained).map (·.id), id ∈ s.session.holdings.keys :=
    fun id hid => (s.session.holdings.mem_keys id).2 ((h.held id).2 hid)
  rw [List.flatMap_append, List.flatMap_singleton, List.map_append, List.nodup_append]
  rw [Scope.inHand, List.nodup_append] at hdistinct
  obtain ⟨hqueue, -, hapart⟩ := hdistinct
  obtain ⟨fs, htakes⟩ | ⟨f, kind, details, hmakes⟩ | hrests := op.course s
  · rw [htakes.obtained]
    rw [htakes.queue, List.map_append] at hqueue hapart
    refine ⟨hcalls, (List.nodup_append.1 hqueue).1, fun id hid id' hid' heq => ?_⟩
    exact hapart id' (List.mem_append_left _ hid') id (hheld id hid) heq.symm
  · rw [hmakes.obtained, List.map_singleton, hmakes.number]
    refine ⟨hcalls, (List.nodup_cons.2 ⟨by simp, List.nodup_nil⟩), fun id hid id' hid' heq => ?_⟩
    rw [List.mem_singleton.1 hid'] at heq
    rw [heq] at hid
    exact hfresh (List.mem_append_right _ (hheld _ hid))
  · rw [hrests.obtained]
    exact ⟨hcalls, List.nodup_nil, by simp⟩

namespace Workspace

variable {w : Workspace} {n : Nat}

/-- The numbers given out in a row of events, counted from any point. -/
theorem length_issued_foldl_step (c : Custody) (events : List Event) :
    (events.foldl Custody.step c).issued.length =
      c.issued.length + (Custody.after c.workspace events).issued.length := by
  unfold Custody.after
  induction events generalizing c with
  | nil => rfl
  | cons e rest ih =>
    rw [List.foldl_cons, List.foldl_cons, ih (c.step e), ih (Custody.step { workspace := _ } e)]
    show (c.issued ++ _).length + _ = _ + (([] ++ _ : List _).length + _)
    rw [List.length_append, List.nil_append, Nat.add_assoc]
    rfl

/-- **Flow files stay apart whatever happens**, as long as numbers are left.  Each event that gives
out a number moves the next one on by one. -/
theorem Distinct.foldl (h : w.Distinct) (events : List Event)
    (hlt : w.pool.supply.nextId.toNat + (Custody.after w events).issued.length < UInt64.size) :
    (events.foldl Workspace.handle w).Distinct ∧
      (events.foldl Workspace.handle w).pool.supply.nextId.toNat =
        w.pool.supply.nextId.toNat + (Custody.after w events).issued.length := by
  induction events generalizing w with
  | nil => exact ⟨h, rfl⟩
  | cons e rest ih =>
    have hissued : (Custody.after w (e :: rest)).issued.length =
        (w.issues e).length + (Custody.after (w.handle e) rest).issued.length :=
      length_issued_foldl_step (Custody.step { workspace := w } e) rest
    rw [hissued] at hlt
    obtain ⟨hdistinct, hnext⟩ := h.handle e (by omega)
    obtain ⟨hrest, hnext'⟩ := ih hdistinct (by omega)
    exact ⟨hrest, by rw [List.foldl_cons, hissued, hnext', hnext, Nat.add_assoc]⟩

/-- **What a session takes and makes in one unit of work is told apart by number**, as long as
numbers are left. -/
theorem obtained_nodup (h : w.Distinct) (hidle : (w.session n).Reflects []) (events : List Event)
    (hlt : w.pool.supply.nextId.toNat + (Custody.after w events).issued.length < UInt64.size) :
    (((recent (callsTo n (w.calls events))).flatMap Call.obtained).map (·.id)).Nodup := by
  induction events using List.reverseRecOn with
  | nil => exact List.nodup_nil
  | append_singleton events e ih =>
    have hle : (Custody.after w events).issued.length ≤
        (Custody.after w (events ++ [e])).issued.length := by
      unfold Custody.after
      rw [List.foldl_append]
      exact (Custody.length_issued_step _ e).1
    have hnodup := ih (by omega)
    obtain ⟨hdistinct, -⟩ := h.foldl events (by omega)
    have hreflects := Session.reflects.foldl hidle events
    rw [calls_append, calls, calls, List.append_nil]
    generalize events.foldl handle w = v at hdistinct hreflects
    cases e with
    | openSession | enqueue bytes attributes => simpa [answered] using hnodup
    | call m op =>
      cases hs : v.scope? m with
      | none =>
        rw [answered_call_of_none hs, List.append_nil]
        exact hnodup
      | some s =>
        obtain ⟨-, hsession, -⟩ := scope?_eq_some hs
        obtain ⟨-, hapart, hfresh⟩ := hdistinct.scope hs
        rw [answered_call hs, callsTo_append, callsTo_singleton]
        by_cases hm : m = n
        · subst hm
          rw [← hsession] at hreflects
          rw [if_pos rfl]
          -- an end of the unit of work leaves nothing; every other call goes on with it
          cases hends : Call.ends (op, (op.run s).1) with
          | true =>
            rw [Program.recent_append_of_ends hends]
            exact List.nodup_nil
          | false =>
            rw [Program.recent_append_of_not_ends hends]
            exact hreflects.obtained_nodup hapart hfresh hnodup
        · rw [if_neg hm, List.append_nil]
          exact hnodup

end Workspace

end ProcessorBench
