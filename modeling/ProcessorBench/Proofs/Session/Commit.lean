import Mathlib.Data.List.Basic
import ProcessorBench.Proofs.Session.Register

/-!
# Commits are all or nothing

A commit makes sure that something was decided for every flow file and then publishes one table of
the register after the other, with the latest version of each flow file, which it has to find.

* `Register.leaving?`, `Register.returning?` — these searches, each of which could fail; none does
  in tables that fit together (`Register.Valid.leaving?_eq`, `Register.Valid.returning?_eq`).
* `Scope.Published` — what is there after a commit that went through: all was found, all is
  published, and nothing waits any more.
* `Session.commit_all_or_nothing` — after any operations the tables fit together, and so a commit
  goes through or changes nothing.
-/

set_option autoImplicit false

namespace ProcessorBench

namespace Register

/-- The flow file is there, and nothing was decided for it. -/
def Undecided (reg : Register) (id : UInt64) : Prop :=
  id ∈ reg.current.keys ∧ id ∉ reg.transfers.keys ∧ id ∉ reg.returns.keys ∧ id ∉ reg.removals.keys

/-- The flow files that are to leave, each with its relationship, if all of them are found. -/
def leaving? (reg : Register) : Option (List (Text × FlowFile)) :=
  reg.transfers.entries.mapM fun e => (reg.current.get? e.1).map (Prod.mk e.2)

/-- The flow files that are to go back to the queue, if all of them are found. -/
def returning? (reg : Register) : Option (List FlowFile) :=
  reg.returns.entries.mapM fun e => reg.current.get? e.1

end Register

/-- What there is after a commit that went through. -/
structure Scope.Published (s s' : Scope) (leaving : List (Text × FlowFile))
    (returning : List FlowFile) : Prop where
  decided : ∀ id, ¬ s.session.register.Undecided id
  found : s.session.register.leaving? = some leaving ∧
    s.session.register.returning? = some returning
  session : s'.session =
    { s.session with
      holdings := ∅
      counters := ∅
      events := []
      routed := leaving.foldl Session.deliver s.session.routed
      removedCount := s.session.removedCount + s.session.register.removals.keys.length
      commits := s.session.commits + 1 }
  pool : s'.pool =
    { s.pool with
      counters := s.session.counters.entries.foldl (fun c e => c.adjust e.1 e.2) s.pool.counters
      provenance := s.pool.provenance ++ (s.session.events ++ leaving.map fun e =>
        { kind := .route, flowFile := e.2.id, relationship := e.1 })
      queue := s.pool.queue.offerAll returning }
  /-- Nothing waits for another commit. -/
  idle : s'.session.register = {} ∧ s'.session.counters = ∅ ∧ s'.session.events = []

/-- A search that misses nothing finds all. -/
theorem mapM_of_isSome {α β : Type} {f : α → Option β} {l : List α} (h : ∀ a ∈ l, (f a).isSome) :
    l.mapM f = some (l.filterMap f) := by
  induction l with
  | nil => rfl
  | cons a l ih =>
    obtain ⟨b, hb⟩ := Option.isSome_iff_exists.1 (h a List.mem_cons_self)
    rw [List.mapM_cons, hb, ih fun a ha => h a (List.mem_cons_of_mem _ ha),
      List.filterMap_cons_some hb]
    rfl

namespace Register

variable {relationships : List Text} {reg : Register}

/-- **No search for what is to leave fails**: there is a latest version of each such flow file. -/
theorem Valid.leaving?_eq (h : reg.Valid relationships) : reg.leaving? =
    some (reg.transfers.entries.filterMap fun e => (reg.current.get? e.1).map (Prod.mk e.2)) := by
  refine mapM_of_isSome fun e he => ?_
  rw [Option.isSome_map, ← Table.mem_keys]
  exact h.transfers_current (List.mem_map_of_mem he)

/-- **No search for what is to go back fails.** -/
theorem Valid.returning?_eq (h : reg.Valid relationships) : reg.returning? =
    some (reg.returns.entries.filterMap fun e => reg.current.get? e.1) := by
  refine mapM_of_isSome fun e he => ?_
  rw [← Table.mem_keys]
  exact h.returns_current (List.mem_map_of_mem he)

end Register

namespace Session

variable {s : Session}

theorem current_of_mem {e : UInt64 × Holding} (he : e ∈ s.holdings.entries) :
    s.register.current.get? e.1 = some e.2.current := by
  have hg : s.holdings.get? e.1 = some e.2 := (s.holdings.mem_entries e.1 e.2).1 he
  simp [register, hg]

/-- What is found is what the session has leave it. -/
theorem leaving?_register {relationships : List Text} (h : s.register.Valid relationships) :
    s.register.leaving? = some s.leaving := by
  rw [h.leaving?_eq]
  unfold leaving Table.values
  rw [List.filterMap_map]
  show some ((s.holdings.entries.filterMap _).filterMap _) = _
  rw [List.filterMap_filterMap]
  refine congrArg some (List.filterMap_congr fun e he => ?_)
  have hcurrent := current_of_mem he
  cases hf : e.2.fate <;> simp [hf, hcurrent, Fate.relationship?]

/-- What is found is what the session gives back. -/
theorem returning?_register {relationships : List Text} (h : s.register.Valid relationships) :
    s.register.returning? = some s.returning := by
  rw [h.returning?_eq]
  unfold returning Table.values
  rw [List.filter_map, List.map_map, ← List.filterMap_eq_map, ← List.filterMap_eq_filter,
    List.filterMap_filterMap]
  show some ((s.holdings.entries.filterMap _).filterMap _) = _
  rw [List.filterMap_filterMap]
  refine congrArg some (List.filterMap_congr fun e he => ?_)
  have hcurrent := current_of_mem he
  by_cases hf : e.2.fate = .giveBack <;> simp [hf, hcurrent, Option.guard]

theorem length_removals (s : Session) : s.register.removals.keys.length = s.dropping := by
  unfold dropping Table.values Table.keys
  rw [List.length_map, List.countP_map]
  show (s.holdings.entries.filterMap _).length = _
  rw [List.length_filterMap_eq_countP]
  refine List.countP_congr fun e _ => ?_
  by_cases hf : e.2.fate = .drop <;> simp [hf]

theorem undecided_iff {id : UInt64} :
    s.register.Undecided id ↔ ∃ h, s.holdings.get? id = some h ∧ h.fate = .undecided := by
  unfold Register.Undecided
  simp only [Table.mem_keys, register, Table.get?_filterMap]
  cases s.holdings.get? id with
  | none => simp
  | some h => cases hf : h.fate <;> simp [hf, Fate.relationship?]

/-- A session after operations, each at whatever pool with the relationships. -/
def after (relationships : List Text) (steps : List (Pool × Operation)) : Session :=
  steps.foldl (fun s e => (e.2.run ⟨s, { e.1 with relationships }⟩).2.session) {}

/-- The tables of a session fit together after any operations. -/
theorem after_valid (relationships : List Text) (steps : List (Pool × Operation)) :
    (after relationships steps).register.Valid relationships := by
  have hkeyed : ({} : Session).Keyed := .of_empty rfl
  have hvalid : ({} : Session).register.Valid relationships := .empty
  unfold after
  generalize ({} : Session) = s at hkeyed hvalid
  induction steps generalizing s with
  | nil => exact hvalid
  | cons e rest ih =>
    let scope : Scope := ⟨s, { e.1 with relationships }⟩
    have hmoves := e.2.moves (s := scope) hkeyed
    exact ih _ (e.2.run_keyed hkeyed) (hvalid.of_moves hmoves)

end Session

/-- A commit that finds a decision for every flow file goes through, if the tables fit together. -/
theorem Scope.published_publish {s : Scope} {relationships : List Text}
    (hvalid : s.session.register.Valid relationships) (hs : s.session.undecided? = none) :
    s.Published s.publish s.session.leaving s.session.returning where
  decided id hid := by
    obtain ⟨h, hg, hfate⟩ := Session.undecided_iff.1 hid
    exact Session.decided_of_undecided? hs hg hfate
  found := ⟨Session.leaving?_register hvalid, Session.returning?_register hvalid⟩
  session := by
    rw [Session.length_removals]
    rfl
  pool := rfl
  idle := ⟨Session.register_of_empty rfl, rfl, rfl⟩

/-- **A commit is all or nothing.**  After any operations of a session, each at a pool with any
flow files, the tables of the session fit together.  A commit then either finds a flow file for
which nothing was decided, and nothing at all is changed; or it finds all that it searches for,
publishes it, and nothing waits any more. -/
theorem Session.commit_all_or_nothing (relationships : List Text)
    (steps : List (Pool × Operation)) :
    (after relationships steps).register.Valid relationships ∧
      ∀ pool : Pool,
        let s : Scope := ⟨after relationships steps, pool⟩
        (∃ id, s.session.register.Undecided id ∧
          Operation.commit.run s = (.error (.flowFile (.undecided id)), s)) ∨
        ∃ s' leaving returning, Operation.commit.run s = (.ok .done, s') ∧
          s.Published s' leaving returning := by
  refine ⟨after_valid relationships steps, fun pool => ?_⟩
  intro s
  have hrun : Operation.commit.run s = Operation.run.answer (fun _ => .done) s.commit := rfl
  unfold Scope.commit at hrun
  cases hundecided : s.session.undecided? with
  | some id =>
    rw [hundecided] at hrun
    exact .inl ⟨id, undecided_iff.2 (undecided_of_undecided? hundecided), hrun⟩
  | none =>
    rw [hundecided] at hrun
    exact .inr ⟨s.publish, _, _, hrun,
      Scope.published_publish (after_valid relationships steps) hundecided⟩

end ProcessorBench
