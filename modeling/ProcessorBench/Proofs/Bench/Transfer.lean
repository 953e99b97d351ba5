import ProcessorBench.Bench.Check
import ProcessorBench.Proofs.Bench.Use
import ProcessorBench.Proofs.Session.Released

/-!
# Transfer queries and checks

After runs a test asks a bench which flow files went to a relationship, and checks that all of them
went to one.  A bench answers for the sessions that it opened since its transfers were cleared, in
whatever order they committed.

* `Bench.routedTo_complete` — the flow files that went to a relationship, by ascending number.
* `Bench.assertAllRoutedCount_exact` — when the check passes.
-/

set_option autoImplicit false

namespace ProcessorBench

variable {υ : Type}

namespace Bench

/-- **The transfer query is complete and in creation order.**  Whatever was done with a bench since
it was new, by its processor and by others: what it lists for a relationship is what the sessions
that count committed to it, in the versions that they committed, by ascending number.  Flow files
with one number keep the order of their sessions and commits.  If all flow files have numbers from
the supply of the bench, and numbers are left, then these ascend strictly, and different
relationships have no number in common. -/
theorem routedTo_complete {b : Bench υ} (hnew : b.New) (uses : List (Use υ)) :
    let b' := uses.foldl use b
    let h := b.history uses
    (∀ relationship, FlowFile.Ascends (h.committedTo relationship) (b'.routedTo relationship)) ∧
    ((∀ a ∈ b.allActs uses, a.fromSupply = true) →
      b.pool.supply.nextId.toNat + h.issued.length < UInt64.size →
      (∀ relationship, (b'.routedTo relationship).Pairwise fun f g => f.id < g.id) ∧
      ∀ r r', r ≠ r' → ∀ f ∈ b'.routedTo r, ∀ g ∈ b'.routedTo r', f.id ≠ g.id) := by
  intro b' h
  have hfaithful : h.Faithful := hnew.faithful uses
  have hworkspace : h.workspace = b'.workspace := workspace_history b uses
  have hascends (relationship : Text) :
      FlowFile.Ascends (h.committedTo relationship) (b'.routedTo relationship) := by
    have hascends := hfaithful.ascends relationship
    rwa [hworkspace] at hascends
  refine ⟨hascends, fun hacts hlt => ?_⟩
  have hnodup : (h.committed.map (·.2.id)).Nodup :=
    History.committed_nodup hfaithful (History.apart_after hnew.queue hnew.sessions hacts hlt)
  refine ⟨fun relationship => (hascends relationship).strict ?_, fun r r' hr f hf g hg => ?_⟩
  · refine hnodup.sublist ?_
    unfold History.committedTo
    rw [List.map_map]
    exact List.filter_sublist.map _
  · exact History.committedTo_disjoint hnodup hr ((hascends r).perm.mem_iff.1 hf)
      ((hascends r').perm.mem_iff.1 hg)

/-- The second session commits before the first one, which made both an older and a younger flow
file. -/
theorem routedTo_complete_of_two_sessions :
    ∃ b : Bench Nat, b.New ∧
      let handle (id : UInt64) : FlowFile := ⟨id, ∅, default, 0⟩
      let uses : List (Use Nat) :=
        [.openSession, .openSession, .call 0 .create, .call 1 .create, .call 0 .create,
          .call 1 (.route (handle 1) "done"), .call 1 .commit,
          .call 0 (.routeAll [handle 2, handle 0] "done"), .call 0 .commit, .run {} fun _ => []]
      let b' := uses.foldl use b
      let h := b.history uses
      (h.committedTo "done").map (·.id) = [0, 2, 1] ∧
        FlowFile.Ascends (h.committedTo "done") (b'.routedTo "done") ∧
        (b'.routedTo "done").Pairwise fun f g => f.id < g.id := by
  let component : Component (Context.signature Nat) Nat := { typeName := "Idle" }
  let body : Program Nat := .finish (.ok ())
  let b : Bench Nat :=
    { processor := { component, trigger := .managed body }, target := ⟨some component⟩, engine := {}
      context := { identifier := "p", processor := {} }
      workspace := { pool := { relationships := ["done"] } }, world := { user := 0 } }
  refine ⟨b, ⟨rfl, rfl, rfl⟩, ?_⟩
  intro handle uses b' h
  obtain ⟨hascends, hstrict⟩ := routedTo_complete (b := b) ⟨rfl, rfl, rfl⟩ uses
  have hacts : ∀ a ∈ b.allActs uses, a.fromSupply = true := by
    decide +kernel
  exact ⟨by decide +kernel, hascends "done", (hstrict hacts (by decide +kernel)).1 "done"⟩

/-- **The transfer check is exact.**  Whatever was done with a bench since it was new: the check for
a relationship and a number passes if and only if the sessions that count committed so many flow
files, and all of them to the relationship; otherwise it fails as checks do.  What was dropped, put
back, rolled back or is still queued was not committed to any relationship, so it plays no part. -/
theorem assertAllRoutedCount_exact {b : Bench υ} (hnew : b.New) (uses : List (Use υ))
    (relationship : Text) (n : Nat) :
    let b' := uses.foldl use b
    let h := b.history uses
    let agrees := h.committed.length = n ∧ ∀ e ∈ h.committed, e.1 = relationship
    (b'.assertAllRoutedCount relationship n = .ok () ↔ agrees) ∧
      (¬agrees → ∃ e, b'.assertAllRoutedCount relationship n = .error e ∧
        e.kind = .assertionFailed) := by
  intro b' h agrees
  have hfaithful : h.Faithful := hnew.faithful uses
  have hworkspace : h.workspace = b'.workspace := workspace_history b uses
  suffices hcases : (b'.assertAllRoutedCount relationship n = .ok () ∧ agrees) ∨
      ((∃ e, b'.assertAllRoutedCount relationship n = .error e ∧ e.kind = .assertionFailed) ∧
        ¬agrees) by
    obtain ⟨hok, hagrees⟩ | ⟨⟨e, herror, hkind⟩, hdiffers⟩ := hcases
    · exact ⟨⟨fun _ => hagrees, fun _ => hok⟩, fun hdiffers => absurd hagrees hdiffers⟩
    · refine ⟨⟨fun hok => ?_, fun hagrees => absurd hagrees hdiffers⟩, fun _ => ⟨e, herror, hkind⟩⟩
      rw [herror] at hok
      cases hok
  unfold assertAllRoutedCount assertAllRouted assertRoutedCount Workspace.assertRoutedCount
  rw [← hworkspace, hfaithful.length_routedTo]
  obtain ⟨hok, hall⟩ | ⟨failure, herror, e, he, hne⟩ :=
    hfaithful.assertAllRouted_cases relationship
  · rw [hok, History.length_committedTo hall]
    dsimp only
    by_cases hn : h.committed.length = n
    · rw [if_pos hn]
      exact .inl ⟨rfl, hn, hall⟩
    · rw [if_neg hn]
      exact .inr ⟨⟨_, rfl, rfl⟩, fun hagrees => hn hagrees.1⟩
  · rw [herror]
    exact .inr ⟨⟨_, rfl, rfl⟩, fun hagrees => hne (hagrees.2 e he)⟩

/-- Of the flow files that one session made, one is dropped and two are routed; another session
rolls back what it made and routed elsewhere. -/
theorem assertAllRoutedCount_exact_of_two :
    ∃ b : Bench Nat, b.New ∧
      let handle (id : UInt64) : FlowFile := ⟨id, ∅, default, 0⟩
      let uses : List (Use Nat) :=
        [.enqueueBytes [104, 105] ∅, .openSession, .openSession, .call 0 .create,
          .call 0 .create, .call 0 .create, .call 1 .create,
          .call 1 (.route (handle 4) "failed"), .call 0 (.drop (handle 1)),
          .call 0 (.routeAll [handle 2, handle 3] "done"), .call 0 .commit, .call 1 .rollback]
      let b' := uses.foldl use b
      b'.assertAllRoutedCount "done" 2 = .ok () ∧
        (b'.assertAllRoutedCount "done" 3).isOk = false := by
  let component : Component (Context.signature Nat) Nat := { typeName := "Idle" }
  let body : Program Nat := .finish (.ok ())
  let b : Bench Nat :=
    { processor := { component, trigger := .managed body }, target := ⟨some component⟩, engine := {}
      context := { identifier := "p", processor := {} }
      workspace := { pool := { relationships := ["done", "failed"] } }, world := { user := 0 } }
  refine ⟨b, ⟨rfl, rfl, rfl⟩, ?_⟩
  intro handle uses b'
  have hcommitted : (b.history uses).committed.length = 2 ∧
      ∀ e ∈ (b.history uses).committed, e.1 = ("done" : Text) := by
    decide +kernel
  constructor
  · exact (assertAllRoutedCount_exact (b := b) ⟨rfl, rfl, rfl⟩ uses "done" 2).1.2 hcommitted
  · obtain ⟨e, herror, -⟩ :=
      (assertAllRoutedCount_exact (b := b) ⟨rfl, rfl, rfl⟩ uses "done" 3).2
        fun hagrees => absurd (hcommitted.1.symm.trans hagrees.1) (by decide)
    rw [herror]
    rfl

end Bench

end ProcessorBench
