import ProcessorBench.Proofs.Session.Settle

/-!
# A unit of work before its end

What a session that started empty on a pool can have done while it neither committed nor rolled
back (`Scope.Pending`): it published nothing, and what it took from the queue together with what
waits there is the queue as it was (`Scope.Pending.run`).  A rollback therefore restores the queue
(`Scope.Pending.rollback`).

Of single operations: counters are only adjusted by the operation that is there for it
(`Operation.run_counters`), what is held stays held (`Operation.run_keeps`), and what an operation
takes or makes is held (`Operation.run_obtained`).
-/

set_option autoImplicit false

namespace ProcessorBench

namespace Operation

/-- What the operation adds to the counters of the pool at once. -/
def adjustments : Operation → List (Text × Int64)
  | adjustCounter name delta true => [(name, delta)]
  | _ => []

/-- The operation takes flow files from the queue, or makes one. -/
def obtains : Operation → Bool
  | create | createChild _ | clone _ | poll | pollUpTo _ => true
  | _ => false

end Operation

/-- The counters after adjustments, one after the other. -/
def Counters.adjustAll (c : Counters) (adjustments : List (Text × Int64)) : Counters :=
  adjustments.foldl (fun c e => c.adjust e.1 e.2) c

namespace Scope

/-! ## Counters -/

theorem withHeld_counters {α : Type} {s : Scope} {f : FlowFile}
    {k : Holding → Except Error α × Scope}
    (h : ∀ g, (k g).2.pool.counters = s.pool.counters) :
    (s.withHeld f k).2.pool.counters = s.pool.counters :=
  withHeld_snd (P := fun t => t.pool.counters = s.pool.counters) rfl fun g _ => h g

theorem routeAll_counters (s : Scope) (fs : List FlowFile) (relationship : Text) :
    (s.routeAll fs relationship).2.pool.counters = s.pool.counters := by
  induction fs generalizing s with
  | nil => rfl
  | cons f rest ih =>
    have hf : (s.route f relationship).2.pool.counters = s.pool.counters :=
      withHeld_counters fun g => by split <;> rfl
    unfold routeAll
    split
    · rename_i e t ht
      rw [ht] at hf
      exact hf
    · rename_i t ht
      rw [ht] at hf
      exact (ih t).trans hf

end Scope

namespace Operation

theorem run_counters {op : Operation} (hop : op.settles = false) (s : Scope) :
    (op.run s).2.pool.counters = s.pool.counters.adjustAll op.adjustments := by
  cases op with
  | create | poll | pollUpTo max | clearRouted => rfl
  | createChild f | clone f | importBytes bytes f | putAttribute f key value | read f | drop f =>
    exact Scope.withHeld_counters fun _ => rfl
  | putAttributes f attributes | removeAttribute f key | route f relationship | giveBack f =>
    exact Scope.withHeld_counters fun _ => by split <;> rfl
  | importStream stream f =>
    refine Scope.withHeld_counters fun _ => ?_
    cases stream with
    | broken => rfl
    | readable bytes => exact Scope.withHeld_counters fun _ => rfl
  | write writer f =>
    cases writer with
    | none => rfl
    | some writer => exact Scope.withHeld_counters fun _ => by split <;> rfl
  | routeAll fs relationship => exact s.routeAll_counters fs relationship
  | adjustCounter name delta immediate => cases immediate <;> rfl
  | commit | rollback => cases hop

end Operation

/-! ## What is held -/

namespace Session

theorem isSome_holdPolled {s : Session} {f : FlowFile} {k : UInt64}
    (h : k = f.id ∨ (s.holdings.get? k).isSome) : ((s.holdPolled f).holdings.get? k).isSome := by
  rw [get?_holdPolled]
  split
  · rfl
  · rename_i hne
    exact h.resolve_left hne

theorem isSome_foldl_holdPolled {s : Session} {fs : List FlowFile} {k : UInt64}
    (h : (∃ f ∈ fs, f.id = k) ∨ (s.holdings.get? k).isSome) :
    ((fs.foldl holdPolled s).holdings.get? k).isSome := by
  induction fs generalizing s with
  | nil => simpa using h
  | cons f rest ih =>
    rw [List.foldl_cons]
    refine ih ?_
    rcases h with ⟨g, hg, rfl⟩ | hs
    · rcases List.mem_cons.1 hg with rfl | hg
      · exact .inr (isSome_holdPolled (.inl rfl))
      · exact .inl ⟨g, hg, rfl⟩
    · exact .inr (isSome_holdPolled (.inr hs))

theorem isSome_hold {s : Session} {f : FlowFile} {k : UInt64}
    (h : k = f.id ∨ (s.holdings.get? k).isSome) : ((s.hold f).holdings.get? k).isSome := by
  rw [get?_hold]
  split
  · rfl
  · rename_i hne
    exact h.resolve_left hne

end Session

namespace Scope

theorem Tends.keeps {s s' : Scope} (hs : s.session.Keyed) (h : s.Tends s') {k : UInt64}
    (hk : (s.session.holdings.get? k).isSome) : (s'.session.holdings.get? k).isSome := by
  obtain ⟨f, rest, -, rfl⟩ | ha := h.take_or_amends hs
  · exact Session.isSome_holdPolled (.inr hk)
  · rw [← Option.isSome_map (f := Holding.polled), ha.polled, Option.isSome_map]
    exact hk

theorem Works.keyed {s s' : Scope} (hs : s.session.Keyed) (h : s.Works s') :
    s'.session.Keyed := by
  induction h with
  | refl => exact hs
  | tail _ ht ih => exact ht.keyed ih

theorem Works.keeps {s s' : Scope} (hs : s.session.Keyed) (h : s.Works s') {k : UInt64}
    (hk : (s.session.holdings.get? k).isSome) : (s'.session.holdings.get? k).isSome := by
  induction h with
  | refl => exact hk
  | tail hw ht ih => exact ht.keeps (Works.keyed hs hw) ih

theorem Creates.keeps {s s' : Scope} (h : s.Creates s') {k : UInt64}
    (hk : (s.session.holdings.get? k).isSome) : (s'.session.holdings.get? k).isSome := by
  cases h with
  | intro f supply kind details numbered next =>
    exact Session.isSome_hold (s := s.session) (f := f) (.inr hk)

end Scope

namespace Operation

/-- What is held stays held until the end of the unit of work. -/
theorem run_keeps {op : Operation} (hop : op.settles = false) {s : Scope} (hs : s.session.Keyed)
    {k : UInt64} (hk : (s.session.holdings.get? k).isSome) :
    ((op.run s).2.session.holdings.get? k).isSome := by
  have heffect := op.effect hop s
  generalize (op.run s).2 = s' at heffect ⊢
  cases heffect with
  | works hw => exact hw.keeps hs hk
  | creates hc => exact hc.keeps hk
  | forgets _ => exact hk

/-- What an operation takes or makes is held. -/
theorem run_obtained {op : Operation} (hop : op.obtains = true) {s : Scope} {a : Answer}
    (ha : (op.run s).1 = .ok a) {f : FlowFile} (hf : f ∈ a.files) :
    ((op.run s).2.session.holdings.get? f.id).isSome := by
  cases op with
  | create =>
    cases ha
    rw [List.mem_singleton.1 hf]
    exact Session.isSome_hold (s := s.session) (.inl rfl)
  | createChild g | clone g =>
    simp only [run, run.answer, Scope.createChild, Scope.clone, Scope.withHeld] at ha ⊢
    cases hh : s.session.held g with
    | error e =>
      rw [hh] at ha
      cases ha
    | ok h =>
      rw [hh] at ha
      cases ha
      rw [List.mem_singleton.1 hf]
      exact Session.isSome_hold (s := s.session) (.inl rfl)
  | poll =>
    cases ha
    simp only [run, run.give, Scope.poll, Pool.poll, Queue.poll, Answer.files] at hf ⊢
    cases hq : s.pool.queue.flowFiles with
    | nil =>
      rw [hq] at hf
      cases hf
    | cons g rest =>
      rw [hq] at hf
      rw [List.mem_singleton.1 hf]
      exact Session.isSome_holdPolled (.inl rfl)
  | pollUpTo max =>
    cases ha
    exact Session.isSome_foldl_holdPolled (.inl ⟨f, hf, rfl⟩)
  | _ => cases hop

end Operation

/-! ## Units of work that have not ended -/

namespace Scope

/-- A session that started empty on the pool has neither committed nor rolled back. -/
structure Pending (pool : Pool) (s : Scope) : Prop where
  routed : s.session.routed = ∅
  removedCount : s.session.removedCount = 0
  commits : s.session.commits = 0
  rollbacks : s.session.rollbacks = 0
  provenance : s.pool.provenance = pool.provenance
  keyed : s.session.Keyed
  queue : (s.pool.queue.flowFiles ++ s.session.taken).Perm pool.queue.flowFiles

variable {pool : Pool} {s s' : Scope}

theorem Pending.start (pool : Pool) : Pending pool { pool } where
  routed := rfl
  removedCount := rfl
  commits := rfl
  rollbacks := rfl
  provenance := rfl
  keyed := .of_empty rfl
  queue := by
    show (pool.queue.flowFiles ++ []).Perm _
    rw [List.append_nil]

/-- The queue is what is to be shown of a step that publishes nothing. -/
theorem Pending.of_unpublished (h : s.Pending pool) (hu : s.Unpublished s')
    (hkeyed : s'.session.Keyed)
    (hqueue : (s'.pool.queue.flowFiles ++ s'.session.taken).Perm
      (s.pool.queue.flowFiles ++ s.session.taken)) : s'.Pending pool where
  routed := hu.routed.trans h.routed
  removedCount := hu.removedCount.trans h.removedCount
  commits := hu.commits.trans h.commits
  rollbacks := hu.rollbacks.trans h.rollbacks
  provenance := hu.provenance.trans h.provenance
  keyed := hkeyed
  queue := hqueue.trans h.queue

theorem Pending.take (hpool : (pool.queue.flowFiles.map (·.id)).Nodup) (h : s.Pending pool)
    {f : FlowFile} {rest : List FlowFile} (hq : s.pool.queue.flowFiles = f :: rest) :
    (s.take f rest).Pending pool := by
  have hnodup := (h.queue.map (·.id)).nodup_iff.2 hpool
  rw [hq, List.cons_append, List.map_cons, List.map_append] at hnodup
  have hnew : ∀ g ∈ s.session.taken, g.id ≠ f.id := by
    intro g hg heq
    refine (List.nodup_cons.1 hnodup).1 (List.mem_append_right _ ?_)
    rw [← heq]
    exact List.mem_map.2 ⟨g, hg, rfl⟩
  refine h.of_unpublished (Tends.take hq).unpublished (h.keyed.holdPolled f) ?_
  rw [hq]
  exact ((Session.taken_holdPolled h.keyed hnew).append_left rest).trans List.perm_middle

theorem Pending.tends (hpool : (pool.queue.flowFiles.map (·.id)).Nodup) (h : s.Pending pool)
    (ht : s.Tends s') : s'.Pending pool := by
  obtain ⟨f, rest, hq, rfl⟩ | ha := ht.take_or_amends h.keyed
  · exact h.take hpool hq
  · refine h.of_unpublished ht.unpublished ha.keyed ?_
    rw [ha.queue]
    refine (Session.taken_perm h.keyed ha.keyed fun k => ?_).append_left _
    have hpolled := congrArg (Option.bind · id) (ha.polled k)
    simpa only [Option.bind_map, Function.id_comp] using hpolled

theorem Pending.works (hpool : (pool.queue.flowFiles.map (·.id)).Nodup) (h : s.Pending pool)
    (hw : s.Works s') : s'.Pending pool := by
  induction hw with
  | refl => exact h
  | tail _ ht ih => exact ih.tends hpool ht

theorem Pending.creates (h : s.Pending pool) (hc : s.Creates s') : s'.Pending pool := by
  have hkeyed := hc.keyed h.keyed
  refine h.of_unpublished hc.unpublished hkeyed ?_
  cases hc with
  | intro f supply kind details numbered next =>
    refine (Session.taken_perm h.keyed hkeyed fun k => ?_).append_left _
    show ((s.session.hold f).holdings.get? k).bind _ = _
    rw [Session.get?_hold]
    split
    · rename_i hk
      rw [hk]
      cases s.session.holdings.get? f.id <;> rfl
    · rfl

/-- **No operation but commit and rollback ends a unit of work.** -/
theorem Pending.run (hpool : (pool.queue.flowFiles.map (·.id)).Nodup) (h : s.Pending pool)
    {op : Operation} (hop : op.settles = false) : (op.run s).2.Pending pool := by
  have heffect := op.effect hop s
  generalize (op.run s).2 = s' at heffect ⊢
  cases heffect with
  | works hw => exact h.works hpool hw
  | creates hc => exact h.creates hc
  | forgets _ =>
    exact ⟨rfl, rfl, h.commits, h.rollbacks, h.provenance, ⟨h.keyed.current, h.keyed.polled⟩,
      h.queue⟩

/-- A rollback restores the queue, up to order. -/
theorem Pending.rollback (h : s.Pending pool) :
    s.rollback.pool.queue.flowFiles.Perm pool.queue.flowFiles :=
  h.queue

end Scope

end ProcessorBench
