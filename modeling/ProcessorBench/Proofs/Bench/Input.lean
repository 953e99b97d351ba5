import ProcessorBench.Bench.Input
import ProcessorBench.Proofs.Session.Holdings

/-!
# Flow files made for the queue

The throw-away session in which `Bench.makeFlowFile` makes a flow file never fails
(`makeFlowFile_spec`): the flow file has the next number of the supply, exactly the given bytes, and
the core attributes with the given ones put over them.  What enqueueing a content does to the
workspace of a bench is therefore a function of the workspace alone, `Workspace.enqueueBytes`.
-/

set_option autoImplicit false

namespace ProcessorBench

namespace Scope

theorem held_create {s : Scope} (hnew : s.session.holdings.get? s.pool.supply.nextId = none) :
    s.create.2.session.held s.create.1 = .ok { current := s.create.1 } := by
  refine Session.held_eq_ok.2 ⟨?_, by simp⟩
  have hg := Session.get?_hold s.session s.create.1 s.create.1.id
  have hnone : s.session.holdings.get? s.create.1.id = none := hnew
  rw [if_pos rfl, hnone] at hg
  exact hg

theorem importBytes_of_held {s : Scope} {f : FlowFile} {h : Holding}
    (hh : s.session.held f = .ok h) (bytes : List UInt8) :
    s.importBytes bytes f = (.ok (s.replaceContent h bytes).1, (s.replaceContent h bytes).2) := by
  unfold importBytes withHeld
  rw [hh]

theorem held_replaceContent (s : Scope) {h : Holding} (hf : h.fate ≠ .drop) (bytes : List UInt8) :
    (s.replaceContent h bytes).2.session.held (s.replaceContent h bytes).1 =
      .ok { h with current := (s.replaceContent h bytes).1 } := by
  refine Session.held_eq_ok.2 ⟨?_, hf⟩
  have hg := Session.get?_revise s.session h (s.replaceContent h bytes).1
    (s.replaceContent h bytes).1.id
  rw [if_pos rfl] at hg
  exact hg

theorem putAttributes_of_held {s : Scope} {f : FlowFile} {h : Holding}
    (hh : s.session.held f = .ok h) (attributes : Attributes) :
    ∃ s', s.putAttributes f attributes =
        (.ok (h.current.withAttributes (h.current.attributes.merge attributes)), s') ∧
      s'.pool.supply = s.pool.supply := by
  unfold putAttributes withHeld
  rw [hh]
  simp only
  split
  · rename_i hempty
    have hnil : attributes.entries = [] := List.isEmpty_iff.1 hempty
    refine ⟨s, ?_, rfl⟩
    unfold Table.merge
    rw [hnil, List.foldl_nil]
    rfl
  · exact ⟨_, rfl, rfl⟩

end Scope

namespace Bench

/-- The flow file with the given content and attributes takes the next number, the next identifier
and the next reading of the clock. -/
structure Makes (supply : Supply) (bytes : List UInt8) (attributes : Attributes) (f : FlowFile)
    (supply' : Supply) : Prop where
  id : f.id = supply.nextId
  content : f.content.bytes = bytes
  attributes : f.attributes =
    (Scope.coreAttributes supply.nextId (supply.sources.uuid supply.uuids)).merge attributes
  entryDate : f.entryDate = supply.sources.clock supply.readings
  nextId : supply'.nextId = supply.nextId + 1
  uuids : supply'.uuids = supply.uuids + 1
  readings : supply'.readings = supply.readings + 1
  sources : supply'.sources = supply.sources

/-- **Making a flow file for the queue succeeds**, under the next number of the supply. -/
theorem makeFlowFile_spec (supply : Supply) (bytes : List UInt8) (attributes : Attributes) :
    ∃ f supply', makeFlowFile supply bytes attributes = (.ok f, supply') ∧
      Makes supply bytes attributes f supply' := by
  obtain ⟨s, hs⟩ : ∃ s : Scope, s = { pool := { supply := supply } } := ⟨_, rfl⟩
  have hcreated : s.create.2.session.held s.create.1 = .ok { current := s.create.1 } :=
    Scope.held_create (by subst hs; rfl)
  have himport := Scope.importBytes_of_held hcreated bytes
  have hheld := Scope.held_replaceContent s.create.2 (h := { current := s.create.1 })
    (by simp) bytes
  obtain ⟨s', hput, hsupply⟩ := Scope.putAttributes_of_held hheld attributes
  have hmake := show makeFlowFile supply bytes attributes = (_, s'.pool.supply) by
    unfold makeFlowFile
    rw [← hs]
    simp only [himport, hput]
    rfl
  rw [hsupply] at hmake
  subst hs
  exact ⟨_, _, hmake, rfl, rfl, rfl, rfl, rfl, rfl, rfl, rfl⟩

/-- The flow file that is queued, and that the caller gets, is the one that is made. -/
theorem enqueueBytes_eq {υ : Type} {b : Bench υ} {bytes : List UInt8} {attributes : Attributes}
    {f : FlowFile} {supply : Supply}
    (hmake : makeFlowFile b.pool.supply bytes attributes = (.ok f, supply)) :
    b.enqueueBytes bytes attributes =
      (.ok f, b.withPool { b.pool with supply, queue := b.pool.queue.offer f }) := by
  unfold enqueueBytes
  rw [hmake]
  rfl

end Bench

/-- Makes a flow file with the given content and queues it. -/
def Workspace.enqueueBytes (w : Workspace) (bytes : List UInt8) (attributes : Attributes) :
    Workspace :=
  let (r, supply) := Bench.makeFlowFile w.pool.supply bytes attributes
  match r with
  | .error _ => { w with pool := { w.pool with supply } }
  | .ok f => { w with pool := { w.pool with supply, queue := w.pool.queue.offer f } }

/-- Enqueueing a content queues one flow file under the next number. -/
theorem Workspace.enqueueBytes_eq (w : Workspace) (bytes : List UInt8) (attributes : Attributes) :
    ∃ f supply, w.enqueueBytes bytes attributes =
        { w with pool := { w.pool with supply, queue := w.pool.queue.offer f } } ∧
      f.id = w.pool.supply.nextId ∧ supply.nextId = w.pool.supply.nextId + 1 := by
  obtain ⟨f, supply, hmake, hmakes⟩ := Bench.makeFlowFile_spec w.pool.supply bytes attributes
  refine ⟨f, supply, ?_, hmakes.id, hmakes.nextId⟩
  unfold enqueueBytes
  rw [hmake]

theorem Bench.enqueueBytes_workspace {υ : Type} (b : Bench υ) (bytes : List UInt8)
    (attributes : Attributes) :
    (b.enqueueBytes bytes attributes).2.workspace = b.workspace.enqueueBytes bytes attributes := by
  obtain ⟨f, supply, hmake, -⟩ := makeFlowFile_spec b.pool.supply bytes attributes
  rw [enqueueBytes_eq hmake]
  unfold Workspace.enqueueBytes
  rw [show b.workspace.pool.supply = b.pool.supply from rfl, hmake]
  rfl

end ProcessorBench
