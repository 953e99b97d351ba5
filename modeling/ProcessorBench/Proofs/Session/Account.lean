import ProcessorBench.Proofs.Session.InHand
import ProcessorBench.Proofs.Session.Unit
import Mathlib.Data.List.Dedup

/-!
# What a unit of work accounts for

A session keeps flow files by number.  Of several flow files with one number that come out of the
queue it keeps the first one, and the others are lost: a rollback puts one back for each number, and
a commit publishes one for each number (`Session.accounts_for_each_number`).  So it accounts for
every flow file that it took or made exactly if no two of them have one number; nothing keeps a
caller from queueing a flow file twice (`Session.rollback_loses_second`).
-/

set_option autoImplicit false

namespace ProcessorBench

open Program (Call recent)

/-- Where numbers are different, a flow file is found under its own. -/
theorem find?_id_eq_some {fs : List FlowFile} (hfs : (fs.map (·.id)).Nodup) {f : FlowFile} :
    fs.find? (fun g => g.id = f.id) = some f ↔ f ∈ fs := by
  constructor
  · exact List.mem_of_find?_eq_some
  · intro hf
    have hsome : (fs.find? fun g => g.id = f.id).isSome := List.find?_isSome.2 ⟨f, hf, by simp⟩
    obtain ⟨g, hg⟩ := Option.isSome_iff_exists.1 hsome
    have hid : g.id = f.id := by simpa using List.find?_some hg
    rw [hg, List.inj_on_of_nodup_map hfs (List.mem_of_find?_eq_some hg) hf hid]

namespace Session

variable {s : Session} {calls : List Call}

/-- What was taken is what was polled first under each number. -/
theorem Reflects.mem_taken (h : s.Reflects calls) (f : FlowFile) :
    f ∈ s.taken ↔ (calls.flatMap Call.polled).find? (fun g => g.id = f.id) = some f := by
  rw [Session.mem_taken]
  simp only [h.polled]
  constructor
  · rintro ⟨id, hid⟩
    obtain rfl : f.id = id := by simpa using List.find?_some hid
    exact hid
  · exact fun hf => ⟨f.id, hf⟩

theorem Reflects.taken_ids_nodup (h : s.Reflects calls) : (s.taken.map (·.id)).Nodup := by
  rw [taken_ids h.keyed]
  exact Scope.numbers_nodup s _

/-- All that was polled was taken, exactly if it had different numbers. -/
theorem Reflects.taken_perm_iff (h : s.Reflects calls) :
    s.taken.Perm (calls.flatMap Call.polled) ↔
      ((calls.flatMap Call.polled).map (·.id)).Nodup := by
  constructor
  · intro hperm
    exact (hperm.map _).nodup_iff.1 h.taken_ids_nodup
  · intro hnodup
    refine (List.perm_ext_iff_of_nodup (taken_nodup h.keyed) hnodup.of_map).2 fun f => ?_
    rw [h.mem_taken, find?_id_eq_some hnodup]

/-- What is held has the numbers of what was taken and made, each once. -/
theorem Reflects.length_keys (h : s.Reflects calls) :
    s.holdings.keys.length =
      (((calls.flatMap Call.polled ++ calls.flatMap Call.made).map (·.id)).dedup).length := by
  refine List.Perm.length_eq ((List.perm_ext_iff_of_nodup s.holdings.keys_nodup
    (List.nodup_dedup _)).2 fun id => ?_)
  rw [Table.mem_keys, h.held, List.mem_dedup, ((Program.obtained_perm calls).map _).mem_iff]

/-- What a rollback puts back of the flow files that were polled. -/
structure Regained (polled gained : List FlowFile) : Prop where
  /-- No number comes back twice. -/
  distinct : (gained.map (·.id)).Nodup
  /-- Under each number comes back what was polled first, as it was polled. -/
  mem_iff : ∀ f, f ∈ gained ↔ polled.find? (fun g => g.id = f.id) = some f
  /-- All that was polled comes back, exactly if it had different numbers. -/
  perm_iff : gained.Perm polled ↔ (polled.map (·.id)).Nodup

/-- A commit lets flow files leave and return, and counts those that are given up. -/
structure Disposed (s s' : Scope) (leaving : List (Text × FlowFile)) (returning : List FlowFile)
    (removed : Nat) : Prop where
  routed : ∀ relationship, s'.session.routedTo relationship =
    s.session.routedTo relationship ++
      (leaving.filter fun e => e.1 = relationship).map Prod.snd
  queue : s'.pool.queue.flowFiles = s.pool.queue.flowFiles ++ returning
  removed : s'.session.removedCount = s.session.removedCount + removed

/-- **A session accounts for each number once.**  Whatever the calls of a unit of work took and made,
from queues with any flow files: a rollback puts back one flow file for each number that was polled,
and a commit disposes of one for each number that was polled or made.  These are all of them exactly
if no number came twice. -/
theorem accounts_for_each_number (steps : List (Pool × Operation)) (pool : Pool) :
    let s : Scope := ⟨(follow steps).1, pool⟩
    let polled := (recent (follow steps).2).flatMap Call.polled
    let made := (recent (follow steps).2).flatMap Call.made
    (∃ gained, (Operation.rollback.run s).1 = .ok .done ∧
      (Operation.rollback.run s).2.pool.queue.flowFiles = pool.queue.flowFiles ++ gained ∧
      Regained polled gained) ∧
    ∀ s', Operation.commit.run s = (.ok .done, s') → ∃ leaving returning removed,
      Disposed s s' leaving returning removed ∧
      leaving.length + returning.length + removed =
        ((polled ++ made).map (·.id)).dedup.length ∧
      (leaving.length + returning.length + removed = polled.length + made.length ↔
        ((polled ++ made).map (·.id)).Nodup) := by
  intro s polled made
  have h : s.session.Reflects (recent (follow steps).2) := reflects.follow steps
  refine ⟨⟨s.session.taken, rfl, rfl, h.taken_ids_nodup, h.mem_taken, h.taken_perm_iff⟩, ?_⟩
  intro s' hcommit
  obtain ⟨hdecided, hrun⟩ | ⟨e, hrun⟩ := Operation.run_commit s
  · obtain rfl : s.publish = s' := congrArg Prod.snd (hrun.symm.trans hcommit)
    have hlength := length_holdings hdecided
    rw [h.length_keys] at hlength
    refine ⟨s.session.leaving, s.session.returning, s.session.dropping,
      ⟨s.routedTo_publish, rfl, rfl⟩, hlength.symm, ?_⟩
    rw [← hlength, ← List.dedup_eq_self]
    have hall : polled.length + made.length = ((polled ++ made).map (·.id)).length := by
      rw [List.length_map, List.length_append]
    rw [hall]
    exact ⟨(List.dedup_sublist _).eq_of_length, congrArg List.length⟩
  · cases hrun.symm.trans hcommit

/-- A flow file that was queued twice is taken twice, and only one comes back. -/
theorem rollback_loses_second :
    let f : FlowFile := ⟨7, ∅, ⟨.caller 0, [97]⟩, 0⟩
    let r := (Operation.pollUpTo 2).run { pool := { queue := ⟨[f, f]⟩ } }
    r.1 = .ok (.flowFiles [f, f]) ∧ r.2.rollback.pool.queue.flowFiles = [f] ∧
      ¬ r.2.rollback.pool.queue.flowFiles.Perm [f, f] := by
  intro f r
  have hqueue : r.2.rollback.pool.queue.flowFiles = [f] := by decide +kernel
  refine ⟨by rfl, hqueue, fun hperm => ?_⟩
  rw [hqueue] at hperm
  exact absurd hperm.length_eq (by decide)

end Session

end ProcessorBench
