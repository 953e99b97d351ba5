import ProcessorBench.Proofs.Session.History

/-!
# Where flow files went

A workspace answers two questions about what the sessions that count committed: which flow files
went to a relationship, and whether all of them went there.  Both answers are told by the history of
the workspace.

* `FlowFile.Ascends` — flow files by ascending number, where equal numbers keep their order.
* `History.Faithful.ascends` — the flow files that went to a relationship.
* `History.Faithful.assertAllRouted_cases` — whether all flow files went there.
-/

set_option autoImplicit false

namespace ProcessorBench

/-! ## By ascending number -/

/-- The flow files `sorted` are `all` of them by ascending number; those with one number keep their
order. -/
structure FlowFile.Ascends (all sorted : List FlowFile) : Prop where
  perm : sorted.Perm all
  ascending : sorted.Pairwise fun f g => f.id ≤ g.id
  stable : ∀ id, sorted.filter (·.id = id) = all.filter (·.id = id)

namespace FlowFile

theorem ascends_mergeSort (all : List FlowFile) :
    Ascends all (all.mergeSort fun f g => f.id ≤ g.id) := by
  have htrans (f g k : FlowFile) (hfg : decide (f.id ≤ g.id) = true)
      (hgk : decide (g.id ≤ k.id) = true) : decide (f.id ≤ k.id) = true :=
    decide_eq_true (UInt64.le_trans (of_decide_eq_true hfg) (of_decide_eq_true hgk))
  have htotal (f g : FlowFile) : (decide (f.id ≤ g.id) || decide (g.id ≤ f.id)) = true := by
    simpa using UInt64.le_total f.id g.id
  have hperm := List.mergeSort_perm all fun f g => decide (f.id ≤ g.id)
  refine ⟨hperm, ?_, fun id => ?_⟩
  · exact (List.pairwise_mergeSort htrans htotal all).imp of_decide_eq_true
  · -- those with one number are in order already, so sorting leaves them as they stand
    have hordered : (all.filter (·.id = id)).Pairwise fun f g => decide (f.id ≤ g.id) = true := by
      refine List.Pairwise.imp_of_mem ?_ (List.pairwise_of_forall (R := fun _ _ => True)
        fun _ _ => trivial)
      intro f g hf hg _
      have hfid : f.id = id := by simpa using (List.mem_filter.1 hf).2
      have hgid : g.id = id := by simpa using (List.mem_filter.1 hg).2
      rw [hfid, hgid]
      exact decide_eq_true (UInt64.le_refl id)
    have hsublist := (List.sublist_mergeSort htrans htotal hordered
      List.filter_sublist).filter (·.id = id)
    rw [List.filter_filter] at hsublist
    simp only [Bool.and_self] at hsublist
    exact (hsublist.eq_of_length (hperm.filter _).length_eq.symm).symm

/-- Where the numbers are different, they ascend strictly. -/
theorem Ascends.strict {all sorted : List FlowFile} (h : Ascends all sorted)
    (hall : (all.map (·.id)).Nodup) : sorted.Pairwise fun f g => f.id < g.id := by
  have hnodup : (sorted.map (·.id)).Nodup := (h.perm.map _).nodup_iff.2 hall
  rw [List.Nodup, List.pairwise_map] at hnodup
  exact h.ascending.imp₂ (fun f g hle hne => UInt64.lt_of_le_of_ne hle hne) hnodup

end FlowFile

namespace History

variable {h : History}

/-- **What went to a relationship** is what the sessions that count committed to it. -/
theorem Faithful.ascends (hf : h.Faithful) (relationship : Text) :
    FlowFile.Ascends (h.committedTo relationship) (h.workspace.routedTo relationship) := by
  unfold Workspace.routedTo
  rw [hf.flatMap_routedTo]
  exact FlowFile.ascends_mergeSort _

end History

/-! ## Whether all went to one relationship -/

/-- A check of all values in a row returns if each of them passes, or fails as one of them does. -/
theorem forM_cases {α : Type} (l : List α) (check : α → Except Error Unit) :
    (l.forM check = .ok () ∧ ∀ a ∈ l, check a = .ok ()) ∨
      ∃ a ∈ l, ∃ e, check a = .error e ∧ l.forM check = .error e := by
  induction l with
  | nil => exact .inl ⟨rfl, fun a ha => (List.not_mem_nil ha).elim⟩
  | cons a rest ih =>
    have hcons : (a :: rest).forM check = (check a).bind fun _ => rest.forM check := rfl
    cases ha : check a with
    | error e =>
      refine .inr ⟨a, List.mem_cons_self, e, ha, ?_⟩
      rw [hcons, ha]
      rfl
    | ok _ =>
      rw [hcons, ha]
      obtain ⟨hok, hall⟩ | ⟨b, hb, e, he, herror⟩ := ih
      · exact .inl ⟨hok, List.forall_mem_cons.2 ⟨ha, hall⟩⟩
      · exact .inr ⟨b, List.mem_cons_of_mem a hb, e, he, herror⟩

namespace Session

variable {s : Session}

/-- A session passes if it committed nothing to other relationships, and fails a check if it did. -/
theorem assertAllRouted_cases (s : Session) (relationship : Text) :
    (s.assertAllRouted relationship = .ok () ∧
      ∀ other, other ≠ relationship → s.routedTo other = []) ∨
    ∃ failure, s.assertAllRouted relationship = .error (.check failure) ∧
      ∃ other, other ≠ relationship ∧ s.routedTo other ≠ [] := by
  unfold assertAllRouted
  cases hfind : s.routed.entries.find? fun e => e.1 ≠ relationship && !e.2.isEmpty with
  | none =>
    refine .inl ⟨rfl, fun other hne => ?_⟩
    rw [List.find?_eq_none] at hfind
    unfold routedTo
    cases hg : s.routed.get? other with
    | none => rfl
    | some fs =>
      have hempty := hfind _ ((s.routed.mem_entries other fs).2 hg)
      simpa [hne] using hempty
  | some e =>
    obtain ⟨other, fs⟩ := e
    have hg := (s.routed.mem_entries other fs).1 (List.mem_of_find?_eq_some hfind)
    have helsewhere := List.find?_some hfind
    simp only [Bool.and_eq_true, decide_eq_true_eq, Bool.not_eq_true', List.isEmpty_eq_false_iff]
      at helsewhere
    refine .inr ⟨_, rfl, other, helsewhere.1, ?_⟩
    unfold routedTo
    rw [hg]
    exact helsewhere.2

/-- Nothing went to other relationships exactly if all that was committed went to this one. -/
theorem Records.routed_elsewhere_iff {calls : List Program.Call} (h : s.Records calls)
    (relationship : Text) :
    (∀ other, other ≠ relationship → s.routedTo other = []) ↔
      ∀ e ∈ Program.committed calls, e.1 = relationship := by
  constructor
  · intro hnone e he
    by_contra hne
    have hnil := hnone e.1 hne
    rw [h.routed, List.map_eq_nil_iff, List.filter_eq_nil_iff] at hnil
    exact hnil e he (decide_eq_true rfl)
  · intro hall other hne
    rw [h.routed, List.map_eq_nil_iff, List.filter_eq_nil_iff]
    intro e he heq
    exact hne ((of_decide_eq_true heq).symm.trans (hall e he))

end Session

namespace History

variable {h : History}

/-- **All flow files went to the relationship**, or a check fails. -/
theorem Faithful.assertAllRouted_cases (hf : h.Faithful) (relationship : Text) :
    (h.workspace.assertAllRouted relationship = .ok () ∧
      ∀ e ∈ h.committed, e.1 = relationship) ∨
    ∃ failure, h.workspace.assertAllRouted relationship = .error (.check failure) ∧
      ∃ e ∈ h.committed, e.1 ≠ relationship := by
  unfold Workspace.assertAllRouted committed
  rw [hf.created]
  obtain ⟨hok, hall⟩ | ⟨s, hs, e, he, herror⟩ :=
    forM_cases (h.opened.map h.workspace.session) (·.assertAllRouted relationship)
  · refine .inl ⟨hok, fun e he => ?_⟩
    obtain ⟨n, hn, he⟩ := List.mem_flatMap.1 he
    obtain ⟨-, hnone⟩ | ⟨failure, hfails, -⟩ :=
      (h.workspace.session n).assertAllRouted_cases relationship
    · exact ((hf.records n).routed_elsewhere_iff relationship).1 hnone e he
    · rw [hall _ (List.mem_map_of_mem hn)] at hfails
      cases hfails
  · obtain ⟨n, hn, rfl⟩ := List.mem_map.1 hs
    obtain ⟨hpasses, -⟩ | ⟨failure, hfails, other, hne, hsome⟩ :=
      (h.workspace.session n).assertAllRouted_cases relationship
    · rw [hpasses] at he
      cases he
    · rw [hfails] at he
      refine .inr ⟨failure, herror.trans he.symm, ?_⟩
      rw [(hf.records n).routed] at hsome
      obtain ⟨f, hf'⟩ := List.exists_mem_of_ne_nil _ hsome
      obtain ⟨e, he, rfl⟩ := List.mem_map.1 hf'
      obtain ⟨hmem, heq⟩ := List.mem_filter.1 he
      refine ⟨e, List.mem_flatMap.2 ⟨n, hn, hmem⟩, ?_⟩
      rw [of_decide_eq_true heq]
      exact hne

/-- As many flow files went to the relationship as were committed to it. -/
theorem Faithful.length_routedTo (hf : h.Faithful) (relationship : Text) :
    (h.workspace.routedTo relationship).length = (h.committedTo relationship).length :=
  (hf.ascends relationship).perm.length_eq

/-- If all went to the relationship, these are all flow files that were committed. -/
theorem length_committedTo {relationship : Text} (hall : ∀ e ∈ h.committed, e.1 = relationship) :
    (h.committedTo relationship).length = h.committed.length := by
  unfold committedTo
  rw [List.length_map, List.filter_eq_self.2 fun e he => decide_eq_true (hall e he)]

end History

end ProcessorBench
