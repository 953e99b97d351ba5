import ProcessorBench.Proofs.Session.Provenance
import ProcessorBench.Proofs.Session.Release
import ProcessorBench.Proofs.Session.Version

/-!
# What a commit does

A caller may decide again and again what becomes of a flow file, and change it before and after.

* `Session.Outcome` — what a commit does with the flow files of its unit of work, told by the calls:
  the last decision counts, and the latest version goes where it says.
* `Workspace.commit_last_decision_latest_version` — every commit that goes through does so, whatever
  the sessions of the workspace did before; a flow file that was given up is rejected from then on.
-/

set_option autoImplicit false

namespace ProcessorBench

open Program (Call recent latest decided)

namespace Session

variable {s : Session} {calls : List Call}

/-- What becomes of the flow files of a unit of work at its commit: some are `leaving`, each through
its relationship, some are `returned` to the queue, and the others are given up, by their numbers in
`dropped`. -/
structure Outcome (calls : List Call) (leaving : List (Text × FlowFile))
    (returned : List FlowFile) (dropped : List UInt64) : Prop where
  /-- Those leave whose last decision says so, in their latest version. -/
  leaves : ∀ relationship f, (relationship, f) ∈ leaving ↔
    latest calls f.id = some f ∧ decided calls f.id = .route relationship
  returns : ∀ f, f ∈ returned ↔ latest calls f.id = some f ∧ decided calls f.id = .giveBack
  drops : ∀ id, id ∈ dropped ↔ decided calls id = .drop
  /-- Each flow file that is given up was given up by one call. -/
  dropped_perm : dropped.Perm (calls.flatMap Call.dropped)
  leaving_ascending : leaving.Pairwise fun d e => d.2.id < e.2.id
  returned_ascending : returned.Pairwise fun f g => f.id < g.id
  /-- Each flow file that was taken or made goes to one of these places. -/
  once : (leaving.map (·.2.id) ++ returned.map (·.id) ++ dropped).Perm
    ((calls.flatMap Call.obtained).map (·.id))
  apart : ((calls.flatMap Call.obtained).map (·.id)).Nodup

theorem Outcome.places_nodup {leaving : List (Text × FlowFile)} {returned : List FlowFile}
    {dropped : List UInt64} (h : Outcome calls leaving returned dropped) :
    (leaving.map (·.2.id) ++ returned.map (·.id) ++ dropped).Nodup :=
  h.once.nodup_iff.2 h.apart

/-- Each held flow file goes to one of three places, if all fates are decided. -/
theorem numbers_of_fates (hs : s.undecided? = none) (id : UInt64) :
    (s.numbers fun h => h.fate.relationship?.isSome).count id +
      (s.numbers fun h => h.fate = .giveBack).count id +
      (s.numbers fun h => h.fate = .drop).count id =
    if (s.holdings.get? id).isSome then 1 else 0 := by
  rw [count_numbers, count_numbers, count_numbers]
  cases hg : s.holdings.get? id with
  | none => rfl
  | some h =>
    have hdecided := decided_of_undecided? hs hg
    cases hf : h.fate with
    | undecided => exact absurd hf hdecided
    | route relationship => simp [hf, Fate.relationship?]
    | giveBack => simp [hf, Fate.relationship?]
    | drop => simp [hf, Fate.relationship?]

/-- **What a session holds goes where the calls say.** -/
theorem Follows.outcome (h : s.Follows calls) (hrecounts : s.Recounts calls)
    (hdecided : s.undecided? = none)
    (hapart : ((calls.flatMap Call.obtained).map (·.id)).Nodup) :
    Outcome calls s.leaving s.returning (s.numbers fun h => h.fate = .drop) := by
  have hkeyed := h.reflects.keyed
  have hcurrent : ∀ {id g}, s.holdings.get? id = some g →
      latest calls g.current.id = some g.current ∧ decided calls g.current.id = g.fate := by
    intro id g hg
    rw [hkeyed.current id g hg]
    exact h.told hapart id g hg
  -- whatever has a latest version is held in it, with the last decision as its fate
  have hheld : ∀ f, latest calls f.id = some f → ∃ id g, s.holdings.get? id = some g ∧
      g.fate = decided calls f.id ∧ g.current = f := by
    intro f hf
    obtain ⟨g, hg⟩ := Option.isSome_iff_exists.1 (h.answered f (mem_of_lastWith hf).1)
    obtain ⟨hlatest, hfate⟩ := h.told hapart f.id g hg
    exact ⟨f.id, g, hg, hfate.symm, Option.some.inj (hlatest.symm.trans hf)⟩
  refine ⟨fun relationship f => ?_, fun f => ?_, fun id => ?_, hrecounts.dropped_perm.symm, ?_, ?_,
    ?_, hapart⟩
  · rw [mem_leaving]
    constructor
    · rintro ⟨id, g, hg, hfate, rfl⟩
      rw [← hfate]
      exact hcurrent hg
    · rintro ⟨hlatest, hroute⟩
      obtain ⟨id, g, hg, hfate, hgf⟩ := hheld f hlatest
      exact ⟨id, g, hg, hfate.trans hroute, hgf⟩
  · rw [mem_returning]
    constructor
    · rintro ⟨id, g, hg, hfate, rfl⟩
      rw [← hfate]
      exact hcurrent hg
    · rintro ⟨hlatest, hback⟩
      obtain ⟨id, g, hg, hfate, hgf⟩ := hheld f hlatest
      exact ⟨id, g, hg, hfate.trans hback, hgf⟩
  · rw [mem_numbers]
    constructor
    · rintro ⟨g, hg, hfate⟩
      rw [(h.told hapart id g hg).2]
      exact of_decide_eq_true hfate
    · intro hdrop
      -- only what is held was ever decided about
      unfold decided at hdrop
      cases hlast : lastWith Prod.fst (calls.flatMap Call.decisions) id with
      | none =>
        rw [hlast] at hdrop
        cases hdrop
      | some d =>
        obtain ⟨hd, rfl⟩ := mem_of_lastWith hlast
        obtain ⟨g, hg⟩ := Option.isSome_iff_exists.1 (h.decisions d hd)
        refine ⟨g, hg, decide_eq_true ?_⟩
        rw [← (h.told hapart d.1 g hg).2]
        exact hdrop
  · refine (List.pairwise_map (f := fun e : Text × FlowFile => e.2.id)).1 ?_
    rw [all_leaving_ids hkeyed]
    exact Scope.numbers_ascending s _
  · refine (List.pairwise_map (f := fun f : FlowFile => f.id)).1 ?_
    rw [returning_ids hkeyed]
    exact Scope.numbers_ascending s _
  · refine List.perm_iff_count.2 fun id => ?_
    rw [List.count_append, List.count_append, all_leaving_ids hkeyed, returning_ids hkeyed,
      numbers_of_fates hdecided, hapart.count]
    simp only [h.reflects.held]

end Session

namespace Workspace

variable {v v' : Workspace} {n : Nat}

/-- A commit of the session leads from `v` to `v'`: flow files are `leaving`, are `returned` to the
queue and are given up as the numbers `dropped`. -/
structure Disposes (v v' : Workspace) (n : Nat) (leaving : List (Text × FlowFile))
    (returned : List FlowFile) (dropped : List UInt64) : Prop where
  routed : ∀ relationship, (v'.session n).routedTo relationship =
    (v.session n).routedTo relationship ++
      (leaving.filter fun e => e.1 = relationship).map Prod.snd
  queue : v'.pool.queue.flowFiles = v.pool.queue.flowFiles ++ returned
  removed : (v'.session n).removedCount = (v.session n).removedCount + dropped.length
  others : ∀ m, m ≠ n → v'.session m = v.session m
  /-- All flow files that are still queued or held are told apart. -/
  distinct : v'.Distinct
  /-- What left or was given up is not among them. -/
  gone : ∀ id ∈ leaving.map (·.2.id) ++ dropped, id ∉ v'.inHand
  /-- Another commit is only counted. -/
  again : v'.perform n .commit = (some (.ok .done), v'.countCommit n)

/-- What a commit does not put back into the queue is not in hand any more. -/
theorem Distinct.gone_of_publish (h : v.Distinct) (hn : n < v.sessions.length)
    {p : Holding → Bool} {id : UInt64} (hid : id ∈ (v.session n).numbers p)
    (hback : id ∉ (v.session n).returning.map (·.id)) : id ∉ (v.publish n).inHand :=
  h.gone_of_release hn (t := Scope.publish ⟨v.session n, v.pool⟩) rfl rfl
    ((Scope.numbers_sublist _ p).subset hid) hback

theorem Distinct.publish_disposes (h : v.Distinct) (hc : v.Committable n) {calls : List Call}
    (houtcome : Session.Outcome calls (v.session n).leaving (v.session n).returning
      ((v.session n).numbers fun h => h.fate = .drop)) :
    Disposes v (v.publish n) n (v.session n).leaving (v.session n).returning
      ((v.session n).numbers fun h => h.fate = .drop) := by
  have hn := hc.isOpen
  have hself : (v.publish n).session n = (Scope.publish ⟨v.session n, v.pool⟩).session := by
    rw [session_publish hn, if_pos rfl]
  refine ⟨fun relationship => ?_, rfl, ?_, fun m hm => ?_, ?_, fun id hid => ?_, ?_⟩
  · rw [hself]
    exact Scope.routedTo_publish ⟨v.session n, v.pool⟩ relationship
  · rw [hself, ← Session.dropping_eq]
    rfl
  · rw [session_publish hn, if_neg hm]
  · exact h.of_perform (congrArg Prod.snd hc.perform) rfl
  · -- no number is among those that went back to the queue and among the others
    obtain ⟨hleft, -, hdropped⟩ := List.nodup_append.1 houtcome.places_nodup
    obtain ⟨-, -, hreturned⟩ := List.nodup_append.1 hleft
    rcases List.mem_append.1 hid with hid | hid
    · have hback : id ∉ (v.session n).returning.map (·.id) := fun hm => hreturned id hid id hm rfl
      rw [Session.all_leaving_ids (h.keyed n)] at hid
      exact h.gone_of_publish hn hid hback
    · exact h.gone_of_publish hn hid fun hm =>
        hdropped id (List.mem_append_right _ hm) id hid rfl
  · exact perform_commit_of_idle (isOpen_resume hn _) (idle_publish hn)

/-- A number that was given out and is not in hand is turned away by all sessions for good. -/
theorem Distinct.rejected_of_gone (h : v.Distinct) {id : UInt64} (hgone : id ∉ v.inHand)
    (hid : id < v.pool.supply.nextId) (events : List Event)
    (hlt : v.pool.supply.nextId.toNat + (Custody.after v events).issued.length < UInt64.size)
    {m : Nat} (hm : m < (events.foldl Workspace.handle v).sessions.length) {op : Operation}
    {g : FlowFile} (hg : g ∈ op.names) (hgid : g.id = id) :
    ∃ r, ((events.foldl Workspace.handle v).perform m op).1 = some r ∧ op.Refuses r := by
  subst hgid
  exact perform_rejected hm ((h.foldl events hlt).1.keyed m) hg
    (held_of_not_mem_inHand (h.gone_foldl hgone hid events hlt) m)

end Workspace

/-- **A commit publishes the last decision and the latest version.**  The flow files of a workspace
have different numbers, and one of its sessions has nothing pending.  Whatever happens then, with
sessions working in turns and as long as numbers are left: a commit of that session that goes
through has the outcome that the calls of its unit of work tell.  What leaves is appended to its
relationship and what is returned to the queue, each by ascending number; what was given up is
counted.  Another commit publishes nothing.

A flow file that was given up is turned away in every later call of the unit of work, and after the
commit by all sessions for good. -/
theorem Workspace.commit_last_decision_latest_version {w : Workspace} (hw : w.Distinct) {n : Nat}
    (hidle : (w.session n).Idle) (events : List Event)
    (hlt : w.pool.supply.nextId.toNat + (Custody.after w events).issued.length < UInt64.size) :
    let v := events.foldl handle w
    let calls := recent (callsTo n (w.calls events))
    (∀ before f a later, calls = before ++ (.drop f, .ok a) :: later →
      ∀ e ∈ later, ∀ g ∈ e.1.names, g.id = f.id → e.1.Refuses e.2) ∧
    ∀ v', v.perform n .commit = (some (.ok .done), v') →
      ∃ leaving returned dropped, Session.Outcome calls leaving returned dropped ∧
        Disposes v v' n leaving returned dropped ∧
        ∀ events', v'.pool.supply.nextId.toNat + (Custody.after v' events').issued.length <
            UInt64.size →
          ∀ m < (events'.foldl handle v').sessions.length, ∀ op : Operation,
            ∀ g ∈ op.names, g.id ∈ dropped →
              ∃ r, ((events'.foldl handle v').perform m op).1 = some r ∧ op.Refuses r := by
  intro v calls
  have hfollows : (v.session n).Follows calls :=
    Session.follows.foldl (Session.follows.idle _ hidle.holdings hidle.counters hidle.events) events
  refine ⟨?_, fun v' hcommit => ?_⟩
  · have hfinal : (v.session n).Final calls :=
      Session.final.foldl (Session.final.idle _ hidle.holdings hidle.counters hidle.events) events
    exact hfinal.refused
  · have hrecounts : (v.session n).Recounts calls :=
      Session.recounts.foldl (.of_idle hidle.holdings hidle.events) events
    have hv : v.Distinct := (hw.foldl events hlt).1
    have hcommittable : v.Committable n := committable_of_perform (by rw [hcommit])
    obtain rfl : v.publish n = v' := congrArg Prod.snd (hcommittable.perform.symm.trans hcommit)
    have houtcome := hfollows.outcome hrecounts hcommittable.decided
      (obtained_nodup hw (.of_empty hidle.holdings) events hlt)
    have hdisposes := hv.publish_disposes hcommittable houtcome
    refine ⟨_, _, _, houtcome, hdisposes, fun events' hlt' m hm op g hg hid => ?_⟩
    refine hdisposes.distinct.rejected_of_gone (hdisposes.gone g.id (List.mem_append_right _ hid))
      (hv.below g.id ?_) events' hlt' hm hg rfl
    obtain ⟨h, hheld, -⟩ := Session.mem_numbers.1 hid
    exact mem_inHand_of_held hheld

/-- A session takes flow files 7 and 8 and makes flow file 9.  It routes the first one, takes that
back and changes the flow file afterwards; it drops the second one, which cannot be routed any more;
it routes the third one. -/
theorem Workspace.commit_last_decision_latest_version_of_three :
    let f : FlowFile := ⟨7, ∅, ⟨.caller 0, [104, 105]⟩, 0⟩
    let g : FlowFile := ⟨8, ∅, ⟨.caller 1, []⟩, 0⟩
    let w : Workspace :=
      { pool := { supply := { nextId := 9 }, relationships := ["out"], queue := ⟨[f, g]⟩ },
        sessions := [{}] }
    let events : List Event :=
      [.call 0 (.pollUpTo 2), .call 0 .create, .call 0 (.route f "out"), .call 0 (.giveBack f),
        .call 0 (.putAttribute f "seen" "yes"), .call 0 (.drop g), .call 0 (.route g "out"),
        .call 0 (.route ⟨9, ∅, default, 0⟩ "out")]
    let v := events.foldl handle w
    let calls := recent (callsTo 0 (w.calls events))
    ∃ v', v.perform 0 .commit = (some (.ok .done), v') ∧
      v'.pool.queue.flowFiles = [f.withAttributes (.ofList [("seen", "yes")])] ∧
      ((v'.session 0).routedTo "out").map (·.id) = [9] ∧ (v'.session 0).removedCount = 1 ∧
      decided calls 7 = .giveBack ∧ decided calls 8 = .drop ∧
      ∃ leaving returned dropped, Session.Outcome calls leaving returned dropped ∧
        Disposes v v' 0 leaving returned dropped := by
  intro f g w events v calls
  have hw : w.Distinct := .of_idle (by decide) (by decide) (by decide)
  obtain ⟨-, hcommits⟩ := commit_last_decision_latest_version hw (n := 0) ⟨rfl, rfl, rfl⟩ events
    (by decide +kernel)
  have hcommit : v.perform 0 .commit = (some (.ok .done), v.publish 0) :=
    Committable.perform ⟨by decide +kernel, by decide +kernel⟩
  obtain ⟨leaving, returned, dropped, houtcome, hdisposes, -⟩ := hcommits _ hcommit
  exact ⟨_, hcommit, by decide +kernel, by decide +kernel, by decide +kernel, by decide +kernel,
    by decide +kernel, leaving, returned, dropped, houtcome, hdisposes⟩

end ProcessorBench
