import ProcessorBench.Proofs.Session.Unit
import Mathlib.Algebra.BigOperators.Group.List.Basic
import Mathlib.Data.Int.ModEq

/-!
# Counters

A session adjusts a counter at once or for its commit.  The second kind is summed up in the session
and reaches the pool only if the unit of work ends with a commit.  Sums are those of machine words,
so the order in which adjustments come together does not matter, nor in which parts.

* `Counters.get?_adjustAll` — a counter after adjustments, by the exact sum of what was added.
* `Workspace.published` — the adjustments that reached the pool, told from the calls alone.
* `Workspace.counters_exact` — the counters of the pool are made of these and of nothing else.
-/

set_option autoImplicit false

namespace ProcessorBench

namespace Counters

/-- The exact sum of what adjustments add to a counter. -/
def total (l : List (Text × Int64)) (name : Text) : Int :=
  ((l.filter fun e => e.1 = name).map fun e => e.2.toInt).sum

theorem total_cons (e : Text × Int64) (l : List (Text × Int64)) (name : Text) :
    total (e :: l) name = (if e.1 = name then e.2.toInt else 0) + total l name := by
  unfold total
  rw [List.filter_cons]
  by_cases he : e.1 = name <;> simp [he]

theorem total_perm {l l' : List (Text × Int64)} (h : l.Perm l') (name : Text) :
    total l name = total l' name :=
  ((h.filter _).map _).sum_eq

/-- A counter after adjustments: it is there if it was there or one of them is for it. -/
theorem get?_adjustAll (c : Counters) (l : List (Text × Int64)) (name : Text) :
    (c.adjustAll l).get? name =
      if name ∈ l.map Prod.fst then some ((c.get? name).getD 0 + Int64.ofInt (total l name))
      else c.get? name := by
  induction l generalizing c with
  | nil => rfl
  | cons e l ih =>
    show ((c.adjust e.1 e.2).adjustAll l).get? name = _
    rw [ih, adjust, Table.get?_insert, total_cons]
    by_cases he : name = e.1
    · subst he
      by_cases hm : e.1 ∈ l.map Prod.fst
      · simp [hm, Int64.ofInt_add, Int64.add_assoc]
      · have hnone : total l e.1 = 0 := by
          unfold total
          rw [List.filter_eq_nil_iff.2]
          · rfl
          · intro d hd heq
            exact hm (List.mem_map.2 ⟨d, hd, by simpa using heq⟩)
        simp [hm, hnone]
    · have he' : ¬e.1 = name := fun h => he h.symm
      have hmem : name ∈ (e :: l).map Prod.fst ↔ name ∈ l.map Prod.fst := by
        rw [List.map_cons, List.mem_cons, or_iff_right he]
      simp only [if_neg he, if_neg he', Int.zero_add, hmem]

theorem adjustAll_append (c : Counters) (l l' : List (Text × Int64)) :
    c.adjustAll (l ++ l') = (c.adjustAll l).adjustAll l' :=
  List.foldl_append

/-- The order of adjustments does not matter. -/
theorem adjustAll_perm (c : Counters) {l l' : List (Text × Int64)} (h : l.Perm l') :
    c.adjustAll l = c.adjustAll l' :=
  Table.ext_get? fun name => by
    rw [get?_adjustAll, get?_adjustAll, total_perm h]
    simp only [(h.map Prod.fst).mem_iff]

/-- Adjustments that were summed up first come to the same. -/
theorem adjustAll_entries (c : Counters) (l : List (Text × Int64)) :
    c.adjustAll (adjustAll ∅ l).entries = c.adjustAll l := by
  refine Table.ext_get? fun name => ?_
  have hsum := get?_adjustAll ∅ l name
  have hmem : name ∈ (adjustAll ∅ l).entries.map Prod.fst ↔ name ∈ l.map Prod.fst := by
    show name ∈ (adjustAll ∅ l).keys ↔ _
    rw [Table.mem_keys, hsum]
    split <;> simp_all
  rw [get?_adjustAll, get?_adjustAll]
  by_cases hm : name ∈ l.map Prod.fst
  · rw [if_pos (hmem.2 hm), if_pos hm]
    rw [if_pos hm, Table.get?_empty, Option.getD_none, Int64.zero_add] at hsum
    have htotal : total (adjustAll ∅ l).entries name = (Int64.ofInt (total l name)).toInt := by
      rw [total, Table.filter_entries, hsum]
      exact List.sum_singleton
    rw [htotal, Int64.ofInt_toInt]
  · rw [if_neg (mt hmem.1 hm), if_neg hm]

end Counters

/-! ## Which adjustments are published -/

/-- The call was a commit that went through. -/
def Program.Call.commits : Call → Bool
  | (.commit, .ok _) => true
  | _ => false

theorem Program.Call.ends_of_commits {e : Call} (h : e.commits = true) : e.ends = true := by
  obtain ⟨op, r⟩ := e
  cases op <;> cases r <;> first | rfl | cases h

theorem Program.Call.deferrals_of_ends {e : Call} (h : e.ends = true) : e.1.deferrals = [] := by
  obtain ⟨op, r⟩ := e
  cases op <;> first | rfl | cases h

open Program (Call recent)

namespace Workspace

/-- Among the calls the session ends its unit of work, and it does so with a commit. -/
def commitsNext (n : Nat) (calls : List (Nat × Call)) : Bool :=
  ((callsTo n calls).find? Call.ends).any Call.commits

/-- The adjustments that reached the pool, in the order of the calls: those made at once, and those
for the commit if the unit of work in which they were made came to one. -/
def published : List (Nat × Call) → List (Text × Int64)
  | [] => []
  | (n, e) :: later =>
    e.1.adjustments ++ (if commitsNext n later then e.1.deferrals else []) ++ published later

/-- The adjustments that wait for the commit of the session. -/
def outstanding (n : Nat) (calls : List (Nat × Call)) : List (Text × Int64) :=
  (recent (callsTo n calls)).flatMap (·.1.deferrals)

theorem commitsNext_append (n : Nat) (calls : List (Nat × Call)) (m : Nat) (e : Call) :
    commitsNext n (calls ++ [(m, e)]) =
      if (callsTo n calls).any Call.ends then commitsNext n calls
      else decide (m = n) && e.commits := by
  unfold commitsNext
  rw [callsTo_append, List.find?_append]
  cases hfind : (callsTo n calls).find? Call.ends with
  | some d =>
    have hany : (callsTo n calls).any Call.ends = true :=
      List.any_eq_true.2 ⟨d, List.mem_of_find?_eq_some hfind, List.find?_some hfind⟩
    simp [hany]
  | none =>
    have hany : (callsTo n calls).any Call.ends = false :=
      List.any_eq_false.2 (List.find?_eq_none.1 hfind)
    rw [hany, callsTo_singleton]
    have hcommits : e.commits = true → e.ends = true := Call.ends_of_commits
    by_cases hm : m = n <;> cases he : e.ends <;> simp_all

/-- A call waits with those after it as long as none of them ends the unit of work. -/
theorem outstanding_cons (n m : Nat) (e : Call) (later : List (Nat × Call)) :
    outstanding n ((m, e) :: later) =
      (if n = m ∧ (callsTo n later).any Call.ends = false then e.1.deferrals else []) ++
        outstanding n later := by
  unfold outstanding
  rw [callsTo_cons]
  by_cases hm : n = m
  · subst hm
    rw [if_pos rfl, Program.recent_cons]
    cases hany : (callsTo n later).any Call.ends with
    | true => simp
    | false =>
      have hall : recent (callsTo n later) = callsTo n later := by
        refine List.rtakeWhile_eq_self_iff.2 fun d hd => ?_
        simpa using List.any_eq_false.1 hany d hd
      cases he : e.ends with
      | true => simp [Call.deferrals_of_ends he]
      | false => simp [hall]
  · have hm' : ¬m = n := fun h => hm h.symm
    simp [hm, hm']

/-- What one more call publishes: its own adjustment, or what waited for it. -/
theorem published_append (calls : List (Nat × Call)) (n : Nat) (e : Call) :
    (published (calls ++ [(n, e)])).Perm (published calls ++
      (e.1.adjustments ++ if e.commits then outstanding n calls else [])) := by
  induction calls with
  | nil => simp [published, outstanding, commitsNext, callsTo, recent]
  | cons d calls ih =>
    obtain ⟨m, d⟩ := d
    rw [List.cons_append, published, published, outstanding_cons, commitsNext_append]
    rw [List.perm_iff_count] at ih ⊢
    intro a
    have hcalls := ih a
    -- an adjustment of the first call is new exactly if the last call ends its unit of work
    have hnext : (callsTo m calls).any Call.ends = false → commitsNext m calls = false := by
      intro hany
      unfold commitsNext
      rw [List.find?_eq_none.2 (List.any_eq_false.1 hany)]
      rfl
    simp only [List.count_append] at hcalls ⊢
    by_cases hm : n = m
    · subst hm
      cases hany : (callsTo n calls).any Call.ends <;> cases hlast : e.commits <;>
        simp_all <;> omega
    · cases hany : (callsTo m calls).any Call.ends <;> simp_all <;> omega

end Workspace

/-! ## The counters of a workspace -/

/-- The counters of a session are made of what its unit of work adjusts for the commit. -/
def Session.Sums (s : Session) (calls : List Call) : Prop :=
  s.counters = Counters.adjustAll ∅ (calls.flatMap (·.1.deferrals))

theorem Session.sums : Session.Invariant Session.Sums where
  idle _ _ hcounters _ := hcounters
  failed s calls e h := by
    unfold Session.Sums
    rw [List.flatMap_append, List.flatMap_singleton]
    exact h.trans (congrArg _ (List.append_nil _).symm)
  run s calls op hop h := by
    unfold Session.Sums
    rw [List.flatMap_append, List.flatMap_singleton, Counters.adjustAll_append,
      Operation.run_deferrals hop, h]

/-- What a call adds to the counters of the pool: its own adjustment, or the sums of the session. -/
theorem Operation.run_published (op : Operation) {s : Scope} {waiting : List (Text × Int64)}
    (hs : s.session.counters = Counters.adjustAll ∅ waiting) :
    (op.run s).2.pool.counters = s.pool.counters.adjustAll
      (op.adjustments ++ if Call.commits (op, (op.run s).1) then waiting else []) := by
  cases hop : op.settles with
  | false =>
    have hcommits : Call.commits (op, (op.run s).1) = false := by
      cases op <;> first | rfl | cases hop
    rw [run_counters hop, hcommits, if_neg Bool.false_ne_true, List.append_nil]
  | true =>
    obtain rfl | rfl := commit_or_rollback hop
    · obtain ⟨-, hrun⟩ | ⟨e, hrun⟩ := run_commit s
      · rw [hrun]
        -- the sums of the session come to what was adjusted one by one
        show s.pool.counters.adjustAll s.session.counters.entries = s.pool.counters.adjustAll waiting
        rw [hs, Counters.adjustAll_entries]
      · rw [hrun]
        rfl
    · rfl

namespace Workspace

/-- The counters are made of the adjustments that the calls tell. -/
structure Counted (w : Workspace) (calls : List (Nat × Call)) : Prop where
  pool : w.pool.counters = Counters.adjustAll ∅ (published calls)
  session : ∀ n, (w.session n).Sums (recent (callsTo n calls))

/-- **Every call keeps the account of the counters.** -/
theorem Counted.call {w : Workspace} {calls : List (Nat × Call)} (h : Counted w calls) {n : Nat}
    {s : Scope} (hs : w.scope? n = some s) (op : Operation) :
    Counted (w.resume n (op.run s).2) (calls ++ [(n, op, (op.run s).1)]) where
  pool := by
    obtain ⟨-, hsession, hpool⟩ := scope?_eq_some hs
    have hwaiting : s.session.counters = Counters.adjustAll ∅ (outstanding n calls) := by
      rw [hsession]
      exact h.session n
    show (op.run s).2.pool.counters = _
    rw [op.run_published hwaiting, hpool, h.pool, ← Counters.adjustAll_append]
    exact (Counters.adjustAll_perm _ (published_append calls n (op, (op.run s).1))).symm
  session _ := Session.sums.call hs op (h.session _)

theorem counted (pool : Pool) (events : List Event) :
    let w : Workspace := { pool := { pool with counters := ∅ } }
    Counted (events.foldl handle w) (w.calls events) := by
  intro w
  refine run_induction ?_ ?_ ?_ ⟨rfl, fun n => ?_⟩ events
  · intro v l h
    refine ⟨h.pool, fun n => ?_⟩
    rw [session_openSession]
    exact h.session n
  · intro v l bytes attributes h
    obtain ⟨f, supply, henqueue, -⟩ := v.enqueueBytes_eq bytes attributes
    rw [henqueue]
    exact ⟨h.pool, h.session⟩
  · intro v l n s op hs h
    exact h.call hs op
  · cases n <;> rfl

/-- **Counters are exact.**  Sessions of a pool adjust counters, commit and roll back in any order,
also unsuccessfully.  Then a counter is there if and only if an adjustment of it was published; its
value is the sum of what was published, modulo `2 ^ 64`, and the sum itself if that is a signed word.
What partial sums do on the way does not matter.  A commit that fails does not end the unit of work,
so that what waits is published once, by the commit that goes through. -/
theorem counters_exact (pool : Pool) (events : List Event) (name : Text) :
    let w : Workspace := { pool := { pool with counters := ∅ } }
    let deltas := published (w.calls events)
    let value? := (events.foldl handle w).pool.counters.get? name
    (value?.isSome ↔ ∃ delta, (name, delta) ∈ deltas) ∧
      ∀ value, value? = some value →
        value.toInt ≡ Counters.total deltas name [ZMOD 2 ^ 64] ∧
        (-2 ^ 63 ≤ Counters.total deltas name → Counters.total deltas name < 2 ^ 63 →
          value.toInt = Counters.total deltas name) := by
  intro w deltas value?
  have hvalue : value? = if name ∈ deltas.map Prod.fst then
      some (Int64.ofInt (Counters.total deltas name)) else none := by
    show (events.foldl handle w).pool.counters.get? name = _
    rw [(counted pool events).pool, Counters.get?_adjustAll, Table.get?_empty, Option.getD_none,
      Int64.zero_add]
  have hmem : name ∈ deltas.map Prod.fst ↔ ∃ delta, (name, delta) ∈ deltas := by simp
  rw [hvalue]
  refine ⟨?_, fun value hv => ?_⟩
  · rw [← hmem]
    split <;> simp_all
  · obtain ⟨-, hv⟩ := Option.ite_none_right_eq_some.1 hv
    obtain rfl := Option.some.inj hv
    refine ⟨?_, fun hlo hhi => Int64.toInt_ofInt_of_le hlo hhi⟩
    rw [Int64.toInt_ofInt]
    exact Int.bmod_emod

/-- Session 0 commits too early and then again, and session 1 rolls back. -/
example : published
    [(0, .adjustCounter "in" 5 false, .ok .done), (1, .adjustCounter "in" 7 false, .ok .done),
      (1, .adjustCounter "out" 1 true, .ok .done), (0, .commit, .error (.flowFile (.undecided 3))),
      (1, .rollback, .ok .done), (0, .commit, .ok .done)] =
    ([("in", 5), ("out", 1)] : List (Text × Int64)) := by
  rfl

end Workspace

end ProcessorBench
