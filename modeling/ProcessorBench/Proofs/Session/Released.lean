import Mathlib.Data.List.Flatten
import Mathlib.Data.List.Nodup
import Mathlib.Data.List.Perm.Subperm
import ProcessorBench.Proofs.Session.Distinct
import ProcessorBench.Proofs.Session.Transfer

/-!
# Flow files that left stay apart

If all flow files of a workspace have numbers from its supply, then no number stands twice among
those that are queued, held, or were committed to some relationship, as long as numbers are left.

* `Workspace.known` — the numbers of all these flow files.
* `Workspace.Apart` — they are different, and below the next number; each act keeps that
  (`Workspace.Apart.act`).
* `History.committed_nodup` — no number was committed twice.
-/

set_option autoImplicit false

namespace ProcessorBench

open Workspace (Act Event)

/-! ## What a session committed -/

namespace Session

variable {s : Session}

/-- What the session committed and did not forget, each flow file with its relationship. -/
def routings (s : Session) : List (Text × FlowFile) :=
  s.routed.entries.flatMap fun e => e.2.map (Prod.mk e.1)

theorem filter_routings (s : Session) (relationship : Text) :
    s.routings.filter (·.1 = relationship) =
      (s.routedTo relationship).map (Prod.mk relationship) := by
  have hentry : ∀ e : Text × List FlowFile, (e.2.map (Prod.mk e.1)).filter (·.1 = relationship) =
      if e.1 = relationship then e.2.map (Prod.mk relationship) else [] := by
    intro e
    rw [List.filter_map]
    by_cases he : e.1 = relationship
    · subst he
      simp [Function.comp_def]
    · simp [he, Function.comp_def]
  have hentries := s.routed.filter_entries relationship
  unfold routings routedTo
  rw [List.filter_flatMap]
  simp only [hentry]
  calc s.routed.entries.flatMap
        (fun e => if e.1 = relationship then e.2.map (Prod.mk relationship) else [])
      = (s.routed.entries.filter (·.1 = relationship)).flatMap
          fun e => e.2.map (Prod.mk relationship) := by
        induction s.routed.entries with
        | nil => rfl
        | cons e rest ih =>
          rw [List.flatMap_cons, ih, List.filter_cons]
          by_cases he : e.1 = relationship <;> simp [he]
    _ = ((s.routed.get? relationship).getD []).map (Prod.mk relationship) := by
        rw [hentries]
        cases s.routed.get? relationship <;> simp

/-- What went to each relationship tells what was committed at all, up to its order. -/
theorem perm_of_filter {l l' : List (Text × FlowFile)}
    (h : ∀ relationship, l.filter (·.1 = relationship) = l'.filter (·.1 = relationship)) :
    l.Perm l' := by
  refine List.perm_iff_count.2 fun e => ?_
  have hself (l : List (Text × FlowFile)) : (l.filter (·.1 = e.1)).count e = l.count e :=
    List.count_filter (decide_eq_true rfl)
  rw [← hself, h, hself]

/-- What was committed to a relationship has it. -/
theorem map_mk_filter (l : List (Text × FlowFile)) (relationship : Text) :
    (l.filter (·.1 = relationship)).map (Prod.mk relationship ∘ Prod.snd) =
      l.filter (·.1 = relationship) := by
  refine (List.map_congr_left fun e he => ?_).trans (List.map_id _)
  exact Prod.ext (of_decide_eq_true (List.mem_filter.1 he).2).symm rfl

theorem Records.routings_perm {calls : List Program.Call} (h : s.Records calls) :
    s.routings.Perm (Program.committed calls) := by
  refine perm_of_filter fun relationship => ?_
  rw [filter_routings, h.routed, List.map_map, map_mk_filter]

/-- Held flow files of two kinds are different ones. -/
theorem numbers_append_subperm (s : Session) {p q : Holding → Bool}
    (hpq : ∀ h, p h = true → q h = false) :
    (s.numbers p ++ s.numbers q).Subperm s.holdings.keys := by
  have hapart : List.Disjoint (s.numbers p) (s.numbers q) := by
    intro id hp hq
    obtain ⟨h, hg, hp⟩ := mem_numbers.1 hp
    obtain ⟨h', hg', hq⟩ := mem_numbers.1 hq
    obtain rfl : h = h' := Option.some.inj (hg.symm.trans hg')
    rw [hpq h hp] at hq
    cases hq
  refine List.subperm_of_subset
    ((Scope.numbers_nodup s p).append (Scope.numbers_nodup s q) hapart) fun id hid => ?_
  rcases List.mem_append.1 hid with hid | hid
  · exact (Scope.numbers_sublist s p).subset hid
  · exact (Scope.numbers_sublist s q).subset hid

end Session

namespace Scope

theorem routings_publish (s : Scope) :
    s.publish.session.routings.Perm (s.session.routings ++ s.session.leaving) := by
  refine Session.perm_of_filter fun relationship => ?_
  rw [List.filter_append, Session.filter_routings, Session.filter_routings, routedTo_publish,
    List.map_append, List.map_map, Session.map_mk_filter]

/-- What leaves in a commit is not in hand any more. -/
theorem inHand_publish {s : Scope} (hs : s.session.Keyed) :
    (s.publish.inHand ++ s.session.leaving.map (·.2.id)).Subperm s.inHand := by
  have hmoved : (s.session.returning.map (·.id) ++ s.session.leaving.map (·.2.id)).Subperm
      s.session.holdings.keys := by
    rw [Session.returning_ids hs, Session.all_leaving_ids hs]
    refine Session.numbers_append_subperm _ fun h hback => ?_
    rw [of_decide_eq_true hback]
    rfl
  show ((s.pool.queue.flowFiles ++ s.session.returning).map _ ++ [] ++ _).Subperm _
  rw [List.append_nil, List.map_append, List.append_assoc]
  exact (List.subperm_append_left _).2 hmoved

end Scope

/-- Every operation but a commit at most forgets what was committed. -/
theorem Operation.run_routings {op : Operation} (hop : op ≠ .commit) (s : Scope) :
    (op.run s).2.session.routings.Sublist s.session.routings := by
  by_cases hclear : op = .clearRouted
  · subst hclear
    exact List.nil_sublist _
  have hsame : (op.run s).2.session.routed = s.session.routed := by
    cases hsettles : op.settles with
    | false => exact op.run_routed hsettles hclear s
    | true =>
      obtain rfl := (Operation.commit_or_rollback hsettles).resolve_left hop
      rfl
  unfold Session.routings
  rw [hsame]

/-! ## All numbers of a workspace -/

namespace Workspace

variable {w : Workspace} {n : Nat} {s : Scope}

/-- What the sessions committed and did not forget, also those that do not count any more. -/
def routings (w : Workspace) : List (Text × FlowFile) := w.sessions.flatMap (·.routings)

/-- The numbers of all flow files that are queued, held or committed. -/
def known (w : Workspace) : List UInt64 := w.inHand ++ w.routings.map (·.2.id)

/-- All these flow files have different numbers, below the next one. -/
structure Apart (w : Workspace) : Prop where
  keyed : ∀ n, (w.session n).Keyed
  nodup : w.known.Nodup
  below : ∀ id ∈ w.known, id < w.pool.supply.nextId

theorem Apart.distinct (h : w.Apart) : w.Distinct where
  keyed := h.keyed
  nodup := (List.nodup_append.1 h.nodup).1
  below id hid := h.below id (List.mem_append_left _ hid)

theorem Apart.of_new (hqueue : w.pool.queue.flowFiles = []) (hsessions : w.sessions = []) :
    w.Apart := by
  have hknown : w.known = [] := by
    unfold known inHand routings
    rw [hqueue, hsessions]
    rfl
  refine ⟨fun n => .of_empty ?_, hknown ▸ List.nodup_nil, fun id hid => ?_⟩
  · unfold session
    rw [hsessions]
    rfl
  · rw [hknown] at hid
    cases hid

theorem routings_resume (hn : n < w.sessions.length) (s : Scope) :
    (w.resume n s).routings.Perm
      (s.session.routings ++ (w.sessions.eraseIdx n).flatMap (·.routings)) :=
  (List.set_perm_cons_eraseIdx hn s.session).flatMap_right _

theorem routings_perm (hs : w.scope? n = some s) :
    w.routings.Perm (s.session.routings ++ (w.sessions.eraseIdx n).flatMap (·.routings)) := by
  have hperm := routings_resume (scope?_eq_some hs).1 s
  rwa [resume_self hs] at hperm

/-- A commit takes numbers out of hand and keeps them as committed ones. -/
theorem known_publish (hs : w.scope? n = some s) (hkeyed : s.session.Keyed) :
    (w.resume n s.publish).known.Subperm w.known := by
  obtain ⟨hn, -, -⟩ := scope?_eq_some hs
  have hhand := inHand_resume hn s.publish
  have hhand' := inHand_perm hs
  have hrouted := ((routings_resume hn s.publish).trans
    (s.routings_publish.append_right _)).map fun e => e.2.id
  have hrouted' := (routings_perm hs).map fun e => e.2.id
  generalize (w.sessions.eraseIdx n).flatMap (·.holdings.keys) = held at hhand hhand'
  generalize (w.sessions.eraseIdx n).flatMap (·.routings) = others at hrouted hrouted'
  rw [List.map_append, List.map_append] at hrouted
  rw [List.map_append] at hrouted'
  have hscope := Scope.inHand_publish hkeyed
  generalize s.publish.inHand = hand at hhand hscope
  generalize s.session.leaving.map (fun e => e.2.id) = left at hrouted hscope
  -- what left is moved from behind what was committed before to what is in hand
  refine ((hhand.append hrouted).trans ?_).subperm.trans
    (((List.subperm_append_right (held ++
      (s.session.routings.map (fun e => e.2.id) ++ others.map fun e => e.2.id))).2
        hscope).trans ?_)
  · refine List.perm_iff_count.2 fun id => ?_
    simp only [List.count_append]
    omega
  · refine List.Perm.subperm ?_
    rw [← List.append_assoc]
    exact (hhand'.append hrouted').symm

/-- At most the numbers that `w` knows are known in `v`, or the next number has joined them. -/
inductive Advances (w v : Workspace) : Prop where
  | keeps (known : v.known.Subperm w.known)
      (nextId : v.pool.supply.nextId = w.pool.supply.nextId)
  | adds (known : v.known.Subperm (w.pool.supply.nextId :: w.known))
      (nextId : v.pool.supply.nextId = w.pool.supply.nextId + 1)

/-- **An event keeps the numbers that are known, or adds the next one.** -/
theorem Apart.handle_known (h : w.Apart) (e : Event) : w.Advances (w.handle e) := by
  -- where no more is committed, what is in hand decides
  have hkeeps (hrouted : (w.handle e).routings.Subperm w.routings) :
      w.Advances (w.handle e) := by
    have hnumbers : ((w.handle e).routings.map (·.2.id)).Subperm (w.routings.map (·.2.id)) := by
      obtain ⟨kept, hperm, hsublist⟩ := hrouted
      exact ⟨_, hperm.map _, hsublist.map _⟩
    obtain ⟨hsub, hnext⟩ | ⟨hperm, hnext⟩ := h.distinct.handle_inHand e
    · exact .keeps (hsub.append hnumbers) hnext
    · exact .adds (hperm.subperm.append hnumbers) hnext
  cases e with
  | openSession =>
    refine hkeeps (List.Perm.subperm (.of_eq ?_))
    show (w.sessions ++ [({} : Session)]).flatMap _ = _
    rw [List.flatMap_append]
    exact List.append_nil _
  | enqueue bytes attributes =>
    refine hkeeps (List.Perm.subperm (.of_eq ?_))
    show (w.enqueueBytes bytes attributes).sessions.flatMap _ = _
    rw [(w.sessions_enqueueBytes bytes attributes).1]
    rfl
  | call n op =>
    cases hs : w.scope? n with
    | none =>
      refine hkeeps (List.Perm.subperm (.of_eq ?_))
      rw [handle_call_of_none hs]
    | some s =>
      by_cases hop : op = .commit
      · subst hop
        obtain ⟨-, hrun⟩ | ⟨e, hrun⟩ := Operation.run_commit s
        · rw [handle_call hs, hrun]
          refine .keeps (known_publish hs (h.distinct.scope hs).1) ?_
          rw [← (scope?_eq_some hs).2.2]
          rfl
        · rw [handle_call hs, hrun, resume_self hs]
          exact .keeps (.refl _) rfl
      · refine hkeeps ?_
        rw [handle_call hs]
        exact (routings_resume (scope?_eq_some hs).1 _).subperm.trans
          (((op.run_routings hop s).subperm.append (.refl _)).trans (routings_perm hs).symm.subperm)

theorem Apart.of_subperm {v : Workspace} (h : w.Apart) (hkeyed : ∀ n, (v.session n).Keyed)
    (hsub : v.known.Subperm w.known) (hnext : v.pool.supply.nextId = w.pool.supply.nextId) :
    v.Apart where
  keyed := hkeyed
  nodup := by
    obtain ⟨ids, hperm, hsublist⟩ := hsub
    exact hperm.nodup_iff.1 (h.nodup.sublist hsublist)
  below id hid := by
    rw [hnext]
    exact h.below id (hsub.subset hid)

theorem Apart.of_next {v : Workspace} (h : w.Apart) (hkeyed : ∀ n, (v.session n).Keyed)
    (hsub : v.known.Subperm (w.pool.supply.nextId :: w.known))
    (hnext : v.pool.supply.nextId = w.pool.supply.nextId + 1)
    (hlt : w.pool.supply.nextId.toNat + 1 < UInt64.size) : v.Apart := by
  have hfresh : w.pool.supply.nextId ∉ w.known := fun hm =>
    absurd (h.below _ hm) (UInt64.lt_irrefl _)
  refine ⟨hkeyed, ?_, fun id hid => ?_⟩
  · obtain ⟨ids, hperm, hsublist⟩ := hsub
    exact hperm.nodup_iff.1 ((List.nodup_cons.2 ⟨hfresh, h.nodup⟩).sublist hsublist)
  · rw [UInt64.lt_iff_toNat_lt, hnext, UInt64.toNat_add]
    show _ < (w.pool.supply.nextId.toNat + 1) % UInt64.size
    rw [Nat.mod_eq_of_lt hlt]
    rcases List.mem_cons.1 (hsub.subset hid) with rfl | hid
    · exact Nat.lt_succ_self _
    · exact Nat.lt_succ_of_lt (UInt64.lt_iff_toNat_lt.1 (h.below id hid))

/-- **Flow files stay apart in each act** that brings none in with a number of its own, as long as
there is a next number. -/
theorem Apart.act (h : w.Apart) {a : Act} (ha : a.fromSupply = true)
    (hlt : w.pool.supply.nextId.toNat + (w.stamps a).length < UInt64.size) : (w.act a).Apart := by
  cases a with
  | queue fs => cases ha
  | forget => exact ⟨h.keyed, h.nodup, h.below⟩
  | clearProvenance => exact ⟨h.keyed, h.nodup, h.below⟩
  | event e =>
    have hkeyed := h.distinct.keyed_handle e
    cases h.handle_known e with
    | keeps hsub hnext => exact h.of_subperm hkeyed hsub hnext
    | adds hsub hnext =>
      rw [Workspace.stamps_of_next hnext, List.length_singleton] at hlt
      exact h.of_next hkeyed hsub hnext hlt

end Workspace

namespace History

/-- **Flow files stay apart whatever happens**, if all have numbers from the supply and numbers are
left. -/
theorem apart_after {w : Workspace} (hqueue : w.pool.queue.flowFiles = [])
    (hsessions : w.sessions = []) {acts : List Act} (hacts : ∀ a ∈ acts, a.fromSupply = true)
    (hlt : w.pool.supply.nextId.toNat + (after w acts).issued.length < UInt64.size) :
    (after w acts).workspace.Apart := by
  induction acts using List.reverseRecOn with
  | nil => exact .of_new hqueue hsessions
  | append_singleton acts a ih =>
    have hsplit : after w (acts ++ [a]) = (after w acts).step a := by
      unfold after
      rw [List.foldl_append]
      rfl
    have hissued : (after w (acts ++ [a])).issued.length =
        (after w acts).issued.length + ((after w acts).workspace.stamps a).length := by
      rw [hsplit]
      exact List.length_append
    have hnumbered := Numbered.after w acts
    have happart := ih (fun d hd => hacts d (List.mem_append_left _ hd)) (by omega)
    rw [hsplit]
    refine happart.act (hacts a (List.mem_append_right _ (List.mem_singleton_self a))) ?_
    rw [hnumbered.toNat_nextId (by omega)]
    omega

variable {h : History}

/-- **No number was committed twice**, to whatever relationships. -/
theorem committed_nodup (hf : h.Faithful) (happart : h.workspace.Apart) :
    (h.committed.map (·.2.id)).Nodup := by
  have hperm : (h.workspace.created.flatMap (·.routings)).Perm h.committed := by
    unfold committed
    rw [hf.created, List.flatMap_map]
    exact List.Perm.flatMap_left _ fun n _ => (hf.records n).routings_perm
  have hsublist : (h.workspace.created.flatMap (·.routings)).Sublist h.workspace.routings := by
    unfold Workspace.routings Workspace.created
    exact (List.drop_sublist _ _).flatMap _
  have hall := (List.nodup_append.1 happart.nodup).2.1
  exact (hperm.map _).nodup_iff.1 (hall.sublist (hsublist.map _))

/-- What went to different relationships has different numbers. -/
theorem committedTo_disjoint (hnodup : (h.committed.map (·.2.id)).Nodup) {r r' : Text}
    (hr : r ≠ r') {f g : FlowFile} (hf : f ∈ h.committedTo r) (hg : g ∈ h.committedTo r') :
    f.id ≠ g.id := by
  obtain ⟨d, hd, rfl⟩ := List.mem_map.1 hf
  obtain ⟨e, he, rfl⟩ := List.mem_map.1 hg
  obtain ⟨hd, hdr⟩ := List.mem_filter.1 hd
  obtain ⟨he, her⟩ := List.mem_filter.1 he
  intro hid
  obtain rfl := List.inj_on_of_nodup_map hnodup hd he hid
  exact hr ((of_decide_eq_true hdr).symm.trans (of_decide_eq_true her))

end History

end ProcessorBench
