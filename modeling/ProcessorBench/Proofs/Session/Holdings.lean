import ProcessorBench.Proofs.Session.Effect
import ProcessorBench.Proofs.Table

/-!
# What work does to the holdings of a session

A session keeps each flow file under its own number, in every version (`Session.Keyed`).  Of the
elementary changes only taking from the queue adds a holding, and none touches what was polled
before; the others amend versions, fates and counters (`Scope.Tends.take_or_amends`).  Nothing of
it is published (`Scope.Tends.unpublished`, `Scope.Creates.unpublished`).
-/

set_option autoImplicit false

namespace ProcessorBench

/-- Each holding stands under the number that all versions in it have. -/
structure Session.Keyed (s : Session) : Prop where
  current : ∀ k h, s.holdings.get? k = some h → h.current.id = k
  polled : ∀ k h f, s.holdings.get? k = some h → h.polled = some f → f.id = k

namespace Session

theorem Keyed.of_empty {s : Session} (hs : s.holdings = ∅) : s.Keyed := by
  constructor
  · intro k h hg
    rw [hs] at hg
    cases hg
  · intro k h f hg
    rw [hs] at hg
    cases hg

/-- The holding of a polled flow file, beside what the session held under its number. -/
def polledHolding (h? : Option Holding) (f : FlowFile) : Holding :=
  match h? with
  | none => { current := f, polled := some f }
  | some h => { h with polled := some (h.polled.getD f) }

theorem get?_holdPolled (s : Session) (f : FlowFile) (k : UInt64) :
    (s.holdPolled f).holdings.get? k =
      if k = f.id then some (polledHolding (s.holdings.get? f.id) f) else s.holdings.get? k := by
  unfold holdPolled
  cases s.holdings.get? f.id <;> exact Table.get?_insert _ _ _ _

theorem get?_hold (s : Session) (f : FlowFile) (k : UInt64) :
    (s.hold f).holdings.get? k =
      if k = f.id then some ((s.holdings.get? f.id).getD { current := f })
      else s.holdings.get? k := by
  unfold hold
  rw [Table.get?_insertIfNew]

theorem get?_revise (s : Session) (h : Holding) (f : FlowFile) (k : UInt64) :
    (s.revise h f).holdings.get? k =
      if k = f.id then some { h with current := f } else s.holdings.get? k := by
  unfold revise
  rw [Table.get?_insert]

theorem Keyed.holdPolled {s : Session} (hs : s.Keyed) (f : FlowFile) : (s.holdPolled f).Keyed := by
  constructor
  · intro k h hg
    rw [get?_holdPolled] at hg
    split at hg
    · rename_i hk
      subst hk
      cases hg
      cases hold : s.holdings.get? f.id with
      | none => rfl
      | some g => exact hs.current _ g hold
    · exact hs.current _ _ hg
  · intro k h g hg hp
    rw [get?_holdPolled] at hg
    split at hg
    · rename_i hk
      subst hk
      cases hg
      cases hold : s.holdings.get? f.id with
      | none =>
        rw [hold] at hp
        cases hp
        rfl
      | some old =>
        rw [hold] at hp
        cases hp
        cases hpo : old.polled with
        | none => rfl
        | some f' => exact hs.polled _ _ _ hold hpo
    · exact hs.polled _ _ _ hg hp

theorem Keyed.hold {s : Session} (hs : s.Keyed) (f : FlowFile) : (s.hold f).Keyed := by
  constructor
  · intro k h hg
    rw [get?_hold] at hg
    split at hg
    · rename_i hk
      subst hk
      cases hg
      cases hold : s.holdings.get? f.id with
      | none => rfl
      | some g => exact hs.current _ _ hold
    · exact hs.current _ _ hg
  · intro k h g hg hp
    rw [get?_hold] at hg
    split at hg
    · rename_i hk
      subst hk
      cases hg
      cases hold : s.holdings.get? f.id with
      | none => rw [hold] at hp; cases hp
      | some old => rw [hold] at hp; exact hs.polled _ _ _ hold hp
    · exact hs.polled _ _ _ hg hp

/-- Exchanging a holding for one with the same number and the same polled version. -/
theorem Keyed.insert {s : Session} (hs : s.Keyed) {k : UInt64} {h h' : Holding}
    (hg : s.holdings.get? k = some h) (hid : h'.current.id = k) (hp : h'.polled = h.polled) :
    Keyed { s with holdings := s.holdings.insert k h' } := by
  constructor
  · intro j g hj
    rw [Table.get?_insert] at hj
    split at hj
    · rename_i he
      cases hj
      rw [hid, he]
    · exact hs.current _ _ hj
  · intro j g f hj hf
    rw [Table.get?_insert] at hj
    split at hj
    · rename_i he
      cases hj
      rw [hp] at hf
      rw [hs.polled _ _ _ hg hf, he]
    · exact hs.polled _ _ _ hj hf

end Session

namespace Scope

/-- What stays when versions, fates and counters change. -/
structure Amends (s s' : Scope) : Prop where
  queue : s'.pool.queue = s.pool.queue
  nextId : s'.pool.supply.nextId = s.pool.supply.nextId
  polled : ∀ k, (s'.session.holdings.get? k).map (·.polled) =
    (s.session.holdings.get? k).map (·.polled)
  keyed : s'.session.Keyed

/-- What stays as long as nothing is published. -/
structure Unpublished (s s' : Scope) : Prop where
  routed : s'.session.routed = s.session.routed
  removedCount : s'.session.removedCount = s.session.removedCount
  commits : s'.session.commits = s.session.commits
  rollbacks : s'.session.rollbacks = s.session.rollbacks
  provenance : s'.pool.provenance = s.pool.provenance
  relationships : s'.pool.relationships = s.pool.relationships

theorem Unpublished.refl (s : Scope) : s.Unpublished s := ⟨rfl, rfl, rfl, rfl, rfl, rfl⟩

theorem Unpublished.trans {s t u : Scope} (h : s.Unpublished t) (h' : t.Unpublished u) :
    s.Unpublished u :=
  ⟨h'.routed.trans h.routed, h'.removedCount.trans h.removedCount, h'.commits.trans h.commits,
    h'.rollbacks.trans h.rollbacks, h'.provenance.trans h.provenance,
    h'.relationships.trans h.relationships⟩

theorem Tends.unpublished {s s' : Scope} (h : s.Tends s') : s.Unpublished s' := by
  cases h with
  | @take f rest waits =>
    unfold Scope.take Session.holdPolled
    split <;> exact ⟨rfl, rfl, rfl, rfl, rfl, rfl⟩
  | content bytes held => exact ⟨rfl, rfl, rfl, rfl, rfl, rfl⟩
  | attributes attributes details held => exact ⟨rfl, rfl, rfl, rfl, rfl, rfl⟩
  | decide fate held allowed => exact ⟨rfl, rfl, rfl, rfl, rfl, rfl⟩
  | drop held => exact ⟨rfl, rfl, rfl, rfl, rfl, rfl⟩
  | count name delta immediate =>
    unfold adjustCounter
    split <;> exact ⟨rfl, rfl, rfl, rfl, rfl, rfl⟩

theorem Works.unpublished {s s' : Scope} (h : s.Works s') : s.Unpublished s' := by
  induction h with
  | refl => exact .refl s
  | tail _ ht ih => exact ih.trans ht.unpublished

theorem Creates.unpublished {s s' : Scope} (h : s.Creates s') : s.Unpublished s' := by
  cases h
  exact ⟨rfl, rfl, rfl, rfl, rfl, rfl⟩

/-- Exchanging a holding for one with the same number and the same polled version amends. -/
theorem amends_of_insert {s s' : Scope} {k : UInt64} {h h' : Holding} (hs : s.session.Keyed)
    (hg : s.session.holdings.get? k = some h)
    (hh : s'.session.holdings = s.session.holdings.insert k h') (hid : h'.current.id = k)
    (hp : h'.polled = h.polled) (hq : s'.pool.queue = s.pool.queue)
    (hn : s'.pool.supply.nextId = s.pool.supply.nextId) : s.Amends s' where
  queue := hq
  nextId := hn
  polled j := by
    rw [hh, Table.get?_insert]
    split
    · rename_i hj
      rw [hj, hg, Option.map_some, Option.map_some, hp]
    · rfl
  keyed := by
    have hk := hs.insert hg hid hp
    constructor
    · intro j g hj
      rw [hh] at hj
      exact hk.current j g hj
    · intro j g f hj
      rw [hh] at hj
      exact hk.polled j g f hj

/-- **An elementary change takes one flow file from the queue, or amends.** -/
theorem Tends.take_or_amends {s s' : Scope} (hs : s.session.Keyed) (h : s.Tends s') :
    (∃ f rest, s.pool.queue.flowFiles = f :: rest ∧ s' = s.take f rest) ∨ s.Amends s' := by
  cases h with
  | take waits => exact .inl ⟨_, _, waits, rfl⟩
  | content bytes held =>
    obtain ⟨hg, -⟩ := Session.held_eq_ok.1 held
    rw [← hs.current _ _ hg] at hg
    exact .inr (amends_of_insert hs hg rfl rfl rfl rfl rfl)
  | attributes attributes details held =>
    obtain ⟨hg, -⟩ := Session.held_eq_ok.1 held
    rw [← hs.current _ _ hg] at hg
    exact .inr (amends_of_insert hs hg rfl rfl rfl rfl rfl)
  | decide fate held allowed =>
    obtain ⟨hg, -⟩ := Session.held_eq_ok.1 held
    rw [← hs.current _ _ hg] at hg
    exact .inr (amends_of_insert hs hg rfl rfl rfl rfl rfl)
  | drop held =>
    obtain ⟨hg, -⟩ := Session.held_eq_ok.1 held
    rw [← hs.current _ _ hg] at hg
    exact .inr (amends_of_insert hs hg rfl rfl rfl rfl rfl)
  | count name delta immediate =>
    unfold adjustCounter
    split <;> exact .inr ⟨rfl, rfl, fun _ => rfl, hs.current, hs.polled⟩

theorem Tends.keyed {s s' : Scope} (hs : s.session.Keyed) (h : s.Tends s') : s'.session.Keyed := by
  obtain ⟨f, rest, -, rfl⟩ | ha := h.take_or_amends hs
  · exact hs.holdPolled f
  · exact ha.keyed

theorem Creates.keyed {s s' : Scope} (hs : s.session.Keyed) (h : s.Creates s') :
    s'.session.Keyed := by
  cases h with
  | intro f supply kind details numbered next =>
    have hk := hs.hold f
    exact ⟨hk.current, hk.polled⟩

end Scope

end ProcessorBench
