import ProcessorBench.Proofs.Session.Account
import ProcessorBench.Proofs.Session.Release

/-!
# What a rollback undoes

A rollback puts back what the session took from the queue in its unit of work, as it was taken, and
forgets the rest.

* `Workspace.Undone` — what there is after a rollback, told by the calls of the unit of work.
* `Workspace.rollback_undoes_session` — every rollback leaves this, whatever the sessions of the
  workspace did before; what the session was answered is turned away from then on.
-/

set_option autoImplicit false

namespace ProcessorBench

open Program (Call recent)

namespace Workspace

variable {v v' : Workspace} {n : Nat} {calls : List Call} {gained : List FlowFile}

/-- A rollback of the session leads from `v` to `v'` and puts the flow files `gained` back into the
queue. -/
structure Undone (v v' : Workspace) (n : Nat) (calls : List Call) (gained : List FlowFile) :
    Prop where
  /-- All that the session took comes back, as it was taken. -/
  taken : gained.Perm (calls.flatMap Call.polled)
  ascending : gained.Pairwise fun f g => f.id < g.id
  /-- Of what the sessions share, only the queue is another one. -/
  pool : v'.pool = { v.pool with queue := ⟨v.pool.queue.flowFiles ++ gained⟩ }
  /-- The session keeps what it committed. -/
  session : v'.session n =
    { v.session n with
      holdings := ∅, counters := ∅, events := [], rollbacks := (v.session n).rollbacks + 1 }
  others : ∀ m, m ≠ n → v'.session m = v.session m
  /-- What the session made is not in hand any more. -/
  gone : ∀ f ∈ calls.flatMap Call.made, f.id ∉ v'.inHand
  /-- Another end of a unit of work is only counted. -/
  commit : v'.perform n .commit = (some (.ok .done), v'.countCommit n)
  rollback : v'.perform n .rollback = (some (.ok .done), v'.countRollback n)

/-- Where the session took everything, in whatever order, the queue is as it was before. -/
theorem Undone.restored (h : Undone v v' n calls gained) (hempty : v.pool.queue.flowFiles = [])
    {queue : List FlowFile} (htaken : (calls.flatMap Call.polled).Perm queue)
    (hascending : queue.Pairwise fun f g => f.id < g.id) :
    v'.pool.queue.flowFiles = queue := by
  rw [h.pool, hempty]
  refine (h.taken.trans htaken).eq_of_pairwise (fun f g _ _ hlt hgt => ?_) h.ascending hascending
  exact absurd (UInt64.lt_trans hlt hgt) (UInt64.lt_irrefl _)

theorem Distinct.undo_undone (h : v.Distinct) (hn : n < v.sessions.length)
    (hreflects : (v.session n).Reflects calls)
    (hapart : ((calls.flatMap Call.polled ++ calls.flatMap Call.made).map (·.id)).Nodup) :
    Undone v (v.undo n) n calls (v.session n).taken := by
  rw [List.map_append] at hapart
  obtain ⟨hpolled, -, hmade⟩ := List.nodup_append.1 hapart
  have hgained := hreflects.taken_perm_iff.2 hpolled
  refine ⟨hgained, ?_, rfl, ?_, fun m hm => ?_, fun f hf => ?_,
    perform_commit_of_idle (isOpen_resume hn _) (idle_undo hn),
    perform_rollback_of_idle (isOpen_resume hn _) (idle_undo hn)⟩
  · refine (List.pairwise_map (f := fun f : FlowFile => f.id)).1 ?_
    rw [Session.taken_ids hreflects.keyed]
    exact Scope.numbers_ascending _ _
  · rw [session_undo hn, if_pos rfl]
    rfl
  · rw [session_undo hn, if_neg hm]
  · have hid : f.id ∈ (calls.flatMap Call.made).map (·.id) := List.mem_map_of_mem hf
    refine h.gone_of_release hn (t := Scope.rollback ⟨v.session n, v.pool⟩) rfl rfl ?_ ?_
    · rw [Table.mem_keys, hreflects.held, ((Program.obtained_perm calls).map _).mem_iff,
        List.map_append]
      exact List.mem_append_right _ hid
    · intro hm
      exact hmade f.id ((hgained.map _).mem_iff.1 hm) f.id hid rfl

end Workspace

/-- **A rollback undoes a session.**  The flow files of a workspace have different numbers, and one
of its sessions holds nothing.  Whatever happens then, with sessions working in turns and as long as
numbers are left: a rollback of that session appends to the queue, by ascending number, what the
session took in its unit of work, as it was taken, and nothing else happens.  If the session took
everything in a queue of ascending numbers, this queue is restored.

All that the session was ever answered is turned away from then on, until the session takes it from
the queue again. -/
theorem Workspace.rollback_undoes_session {w : Workspace} (hw : w.Distinct) {n : Nat}
    (hidle : (w.session n).holdings = ∅) (events : List Event)
    (hlt : w.pool.supply.nextId.toNat + (Custody.after w events).issued.length < UInt64.size)
    (hn : n < (events.foldl handle w).sessions.length) :
    let v := events.foldl handle w
    let calls := recent (callsTo n (w.calls events))
    ∃ v' gained, v.perform n .rollback = (some (.ok .done), v') ∧ Undone v v' n calls gained ∧
      (v.pool.queue.flowFiles = [] → ∀ queue : List FlowFile,
        (calls.flatMap Call.polled).Perm queue → (queue.Pairwise fun f g => f.id < g.id) →
          v'.pool.queue.flowFiles = queue) ∧
      ∀ events', v'.pool.supply.nextId.toNat + (Custody.after v' events').issued.length <
          UInt64.size →
        ∀ e ∈ callsTo n (w.calls events), ∀ f ∈ e.answered,
          (∀ e' ∈ callsTo n (v'.calls events'), ∀ g ∈ e'.polled, g.id ≠ f.id) →
            ∀ op : Operation, ∀ g ∈ op.names, g.id = f.id →
              ∃ r, ((events'.foldl handle v').perform n op).1 = some r ∧ op.Refuses r := by
  intro v calls
  have hv : v.Distinct := (hw.foldl events hlt).1
  have hreflects : (v.session n).Reflects calls := Session.reflects.foldl (.of_empty hidle) events
  have hapart := ((Program.obtained_perm calls).map _).nodup_iff.1
    (obtained_nodup hw (.of_empty hidle) events hlt)
  have hundone := hv.undo_undone hn hreflects hapart
  refine ⟨v.undo n, _, perform_rollback hn, hundone, fun hempty queue htaken hascending =>
    hundone.restored hempty htaken hascending, ?_⟩
  intro events' hlt' e he f hf hpolled op g hg hid
  have hundo : (v.undo n).Distinct := hv.of_perform (congrArg Prod.snd (perform_rollback hn)) rfl
  have hissued : f.id < (v.undo n).pool.supply.nextId :=
    hw.answered_lt hlt (mem_calls_of_mem_callsTo he) hf
  rw [← hid] at hpolled hissued
  exact hundo.rejected_of_not_polled (isOpen_resume hn _) (idle_undo hn).holdings events' hlt'
    hissued hpolled hg

/-- A session takes flow files 7 and 8, changes one and drops the other, and makes flow file 9.  The
rollback leaves the queue as it was, and flow file 7 is turned away until it is polled again. -/
theorem Workspace.rollback_undoes_session_of_two :
    let f : FlowFile := ⟨7, ∅, ⟨.caller 0, [104, 105]⟩, 0⟩
    let g : FlowFile := ⟨8, ∅, ⟨.caller 1, []⟩, 0⟩
    let w : Workspace :=
      { pool := { supply := { nextId := 9 }, queue := ⟨[f, g]⟩ }, sessions := [{}, {}] }
    let events : List Event :=
      [.call 0 (.pollUpTo 2), .call 0 (.putAttribute f "seen" "yes"), .call 0 (.drop g),
        .call 0 .create, .call 1 (.poll)]
    let v := events.foldl handle w
    ∃ v', v.perform 0 .rollback = (some (.ok .done), v') ∧ v'.pool.queue.flowFiles = [f, g] ∧
      ∃ r, (v'.perform 0 (.read f)).1 = some r ∧ (Operation.read f).Refuses r := by
  intro f g w events v
  have hw : w.Distinct := .of_idle (by decide) (by decide) (by decide)
  obtain ⟨v', gained, hrollback, hundone, hrestored, hrejected⟩ :=
    rollback_undoes_session hw (n := 0) rfl events (by decide +kernel) (by decide +kernel)
  refine ⟨v', hrollback, hrestored (by decide +kernel) [f, g] ?_ ?_, ?_⟩
  · exact .of_eq (by decide +kernel)
  · decide
  · have hnext : v'.pool.supply.nextId = v.pool.supply.nextId := by rw [hundone.pool]
    refine hrejected [] ?_ (.pollUpTo 2, .ok (.flowFiles [f, g])) (List.Mem.head _) f
      (List.mem_cons_self) (by simp [calls, callsTo]) (.read f) f (List.mem_singleton_self f) rfl
    show v'.pool.supply.nextId.toNat + 0 < UInt64.size
    rw [hnext]
    decide +kernel

end ProcessorBench
