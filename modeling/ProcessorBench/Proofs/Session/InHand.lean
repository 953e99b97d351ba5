import Mathlib.Data.List.Nodup
import ProcessorBench.Proofs.Session.Register

/-!
# What is in hand

While a session works, a flow file that it may have is in the queue or held by it.  Work only moves
numbers between the two, and whatever makes a flow file adds one (`Scope.Works.inHand_perm`,
`Scope.Creates.inHand_perm`), as long as no number was given out twice.  At the end of a unit of work
each flow file that is held leaves, returns or is given up (`Session.length_holdings`).
-/

set_option autoImplicit false

namespace ProcessorBench

namespace Scope

/-- The numbers of the flow files that are in the queue or held by the session. -/
def inHand (s : Scope) : List UInt64 :=
  s.pool.queue.flowFiles.map (·.id) ++ s.session.holdings.keys

variable {s s' : Scope}

theorem keys_holdPolled {s : Session} {f : FlowFile} (hnew : f.id ∉ s.holdings.keys) :
    (s.holdPolled f).holdings.keys.Perm (f.id :: s.holdings.keys) := by
  refine (List.perm_ext_iff_of_nodup (Table.keys_nodup _)
    (List.nodup_cons.2 ⟨hnew, Table.keys_nodup _⟩)).2 fun id => ?_
  rw [List.mem_cons, Table.mem_keys, Table.mem_keys, Session.get?_holdPolled]
  by_cases hid : id = f.id <;> simp [hid]

theorem keys_hold {s : Session} {f : FlowFile} (hnew : f.id ∉ s.holdings.keys) :
    (s.hold f).holdings.keys.Perm (f.id :: s.holdings.keys) := by
  refine (List.perm_ext_iff_of_nodup (Table.keys_nodup _)
    (List.nodup_cons.2 ⟨hnew, Table.keys_nodup _⟩)).2 fun id => ?_
  rw [List.mem_cons, Table.mem_keys, Table.mem_keys, Session.get?_hold]
  by_cases hid : id = f.id <;> simp [hid]

theorem Amends.keys (h : s.Amends s') :
    s'.session.holdings.keys.Perm s.session.holdings.keys := by
  refine (List.perm_ext_iff_of_nodup (Table.keys_nodup _) (Table.keys_nodup _)).2 fun id => ?_
  rw [Table.mem_keys, Table.mem_keys, ← Option.isSome_map (f := Holding.polled), h.polled,
    Option.isSome_map]

/-- An elementary change moves numbers in hand, and no more. -/
theorem Tends.inHand_perm (hs : s.session.Keyed) (hdistinct : s.inHand.Nodup) (h : s.Tends s') :
    s'.inHand.Perm s.inHand ∧ s'.pool.supply.nextId = s.pool.supply.nextId := by
  obtain ⟨f, rest, hq, rfl⟩ | ha := h.take_or_amends hs
  · unfold inHand at hdistinct ⊢
    rw [hq, List.map_cons, List.cons_append, List.nodup_cons, List.mem_append] at hdistinct
    have hnew : f.id ∉ s.session.holdings.keys := fun hm => hdistinct.1 (.inr hm)
    rw [hq]
    exact ⟨((keys_holdPolled hnew).append_left _).trans List.perm_middle, rfl⟩
  · unfold inHand
    rw [ha.queue]
    exact ⟨ha.keys.append_left _, ha.nextId⟩

theorem Works.inHand_perm (hs : s.session.Keyed) (hdistinct : s.inHand.Nodup) (h : s.Works s') :
    s'.inHand.Perm s.inHand ∧ s'.pool.supply.nextId = s.pool.supply.nextId := by
  induction h with
  | refl => exact ⟨.refl _, rfl⟩
  | tail hw ht ih =>
    obtain ⟨hperm, hnext⟩ := ht.inHand_perm (Works.keyed hs hw) (ih.1.nodup_iff.2 hdistinct)
    exact ⟨hperm.trans ih.1, hnext.trans ih.2⟩

/-- A flow file that is made is one more in hand, if its number is not in hand yet. -/
theorem Creates.inHand_perm (hfresh : s.pool.supply.nextId ∉ s.inHand) (h : s.Creates s') :
    s'.inHand.Perm (s.pool.supply.nextId :: s.inHand) ∧
      s'.pool.supply.nextId = s.pool.supply.nextId + 1 := by
  cases h with
  | intro f supply kind details numbered next =>
    have hnew : f.id ∉ s.session.holdings.keys := by
      rw [numbered]
      exact fun hm => hfresh (List.mem_append_right _ hm)
    refine ⟨?_, next⟩
    rw [← numbered]
    exact ((keys_hold hnew).append_left _).trans List.perm_middle

end Scope

/-! ## Commits and rollbacks -/

theorem Session.mem_numbers {s : Session} {p : Holding → Bool} {id : UInt64} :
    id ∈ s.numbers p ↔ ∃ h, s.holdings.get? id = some h ∧ p h = true := by
  rw [← List.count_pos_iff, Session.count_numbers]
  cases s.holdings.get? id with
  | none => simp
  | some h => by_cases hp : p h = true <;> simp [hp]

/-- Each held flow file leaves, returns or is given up, if all fates are decided. -/
theorem Session.length_holdings {s : Session} (hs : s.undecided? = none) :
    s.holdings.keys.length = s.leaving.length + s.returning.length + s.dropping := by
  have hdecided : ∀ h ∈ s.holdings.values, h.fate ≠ .undecided := by
    intro h hm
    obtain ⟨⟨k, h⟩, he, rfl⟩ := List.mem_map.1 hm
    exact decided_of_undecided? hs ((s.holdings.mem_entries k h).1 he)
  have hlength : s.holdings.keys.length = s.holdings.values.length := by
    unfold Table.keys Table.values
    rw [List.length_map, List.length_map]
  unfold leaving returning dropping
  rw [hlength, List.length_map]
  generalize s.holdings.values = l at hdecided
  induction l with
  | nil => rfl
  | cons h l ih =>
    have htl := ih fun g hg => hdecided g (List.mem_cons_of_mem h hg)
    have hfate := hdecided h List.mem_cons_self
    cases hf : h.fate with
    | undecided => exact absurd hf hfate
    | route relationship => simp [hf, htl]; omega
    | giveBack => simp [hf, htl]; omega
    | drop => simp [hf, htl]; omega

namespace Scope

theorem numbers_sublist (s : Session) (p : Holding → Bool) :
    (s.numbers p).Sublist s.holdings.keys :=
  List.filter_sublist.map Prod.fst

theorem numbers_nodup (s : Session) (p : Holding → Bool) : (s.numbers p).Nodup :=
  s.holdings.keys_nodup.sublist (numbers_sublist s p)

/-- Numbers of held flow files stand in ascending order. -/
theorem numbers_ascending (s : Session) (p : Holding → Bool) :
    (s.numbers p).Pairwise (· < ·) := by
  refine List.Pairwise.sublist (numbers_sublist s p) ?_
  exact s.holdings.keys_ascending.imp fun h => Std.compare_eq_lt.1 h

end Scope

end ProcessorBench
