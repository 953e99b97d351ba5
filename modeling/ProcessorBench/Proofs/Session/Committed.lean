import ProcessorBench.Proofs.Session.Counters
import ProcessorBench.Proofs.Session.Outcome

/-!
# What a session committed

A session works through one unit of work after the other, and each commit that goes through adds to
what it committed.  What that is can be told by the calls to the session and their answers alone,
also where a caller queued flow files with one number.

* `Program.standing` — the version in which a session has a flow file.
* `Program.delivered` — what the commit of a unit of work lets leave.
* `Program.committed` — what a row of calls committed, commit after commit.
* `Session.Records.run` — a session keeps what its calls committed, whatever it does.
-/

set_option autoImplicit false

namespace ProcessorBench

open Program (Call recent decided)

/-! ## What calls tell of a unit of work -/

namespace Program

/-- The versions that a call gave to flow files which the session had. -/
def Call.revised (e : Call) : List FlowFile := if e.1.obtains then [] else e.answered

/-- The version in which the session has a flow file, as far as the calls tell: the last one that a
call gave to it, and otherwise the first one that came with its number. -/
def standing (calls : List Call) (id : UInt64) : Option FlowFile :=
  (lastWith (·.id) (calls.flatMap Call.revised) id).or
    ((calls.flatMap Call.obtained).find? fun f => f.id = id)

/-- The flow files that calls took or made, by number: each number once, and in ascending order. -/
def taken (calls : List Call) : List UInt64 :=
  ((calls.flatMap Call.obtained).foldl (fun t f => t.insert f.id ()) ∅ : Table UInt64 Unit).keys

/-- What leaves in a commit, each with its relationship and by ascending number: the flow files
whose last decision says so, in the versions in which the session has them. -/
def delivered (calls : List Call) : List (Text × FlowFile) :=
  (taken calls).filterMap fun id =>
    (decided calls id).relationship?.bind fun relationship =>
      (standing calls id).map (Prod.mk relationship)

theorem mem_taken (calls : List Call) (id : UInt64) :
    id ∈ taken calls ↔ id ∈ (calls.flatMap Call.obtained).map (·.id) := by
  have hinsert (fs : List FlowFile) (t : Table UInt64 Unit) :
      id ∈ (fs.foldl (fun t f => t.insert f.id ()) t).keys ↔ id ∈ t.keys ∨ id ∈ fs.map (·.id) := by
    induction fs generalizing t with
    | nil => simp
    | cons f rest ih =>
      rw [List.foldl_cons, ih, Table.mem_keys_insert, List.map_cons, List.mem_cons]
      exact or_assoc.trans or_left_comm
  refine (hinsert _ ∅).trans (or_iff_right ?_)
  exact List.not_mem_nil

theorem standing_append (calls : List Call) (e : Call) (id : UInt64) :
    standing (calls ++ [e]) id = (lastWith (·.id) e.revised id).or
      ((standing calls id).or (e.obtained.find? fun f => f.id = id)) := by
  unfold standing
  rw [List.flatMap_append, List.flatMap_append, List.flatMap_singleton, List.flatMap_singleton,
    lastWith_append, List.find?_append, Option.or_assoc, Option.or_assoc]

/-! ## What calls tell of all units of work -/

/-- A row of calls, as far as its commits matter. -/
structure Progress where
  /-- The calls of the last unit of work. -/
  unit : List Call := []
  committed : List (Text × FlowFile) := []

/-- The call makes the session forget what it committed. -/
def Call.forgets : Call → Bool
  | (.clearRouted, _) => true
  | _ => false

def Progress.step (p : Progress) (e : Call) : Progress where
  unit := if e.ends then [] else p.unit ++ [e]
  committed :=
    if e.commits then p.committed ++ delivered p.unit
    else if e.forgets then [] else p.committed

/-- What the calls to a session committed and it was not told to forget, each flow file with its
relationship: one commit after the other, and by number in each. -/
def committed (calls : List Call) : List (Text × FlowFile) :=
  (calls.foldl Progress.step {}).committed

theorem unit_foldl_step (calls : List Call) :
    (calls.foldl Progress.step {}).unit = recent calls := by
  induction calls using List.reverseRecOn with
  | nil => rfl
  | append_singleton calls e ih =>
    rw [List.foldl_append, List.foldl_cons, List.foldl_nil, Progress.step, ih]
    cases he : e.ends with
    | true => rw [recent_append_of_ends he, if_pos rfl]
    | false => rw [recent_append_of_not_ends he, if_neg Bool.false_ne_true]

theorem committed_append (calls : List Call) (e : Call) :
    committed (calls ++ [e]) =
      if e.commits then committed calls ++ delivered (recent calls)
      else if e.forgets then [] else committed calls := by
  unfold committed
  rw [List.foldl_append, List.foldl_cons, List.foldl_nil, Progress.step, unit_foldl_step]

end Program

open Program (standing delivered committed)

/-! ## What a session holds -/

/-- A session has flow files in the versions and with the fates that its calls tell. -/
structure Session.Stands (s : Session) (calls : List Call) : Prop where
  reflects : s.Reflects calls
  current : ∀ id, (s.holdings.get? id).map (·.current) = standing calls id
  fate : ∀ id, ((s.holdings.get? id).map (·.fate)).getD .undecided = decided calls id

namespace Session

variable {s : Session} {calls : List Call} {e : Call}

theorem current_hold (s : Session) (f : FlowFile) (id : UInt64) :
    ((s.hold f).holdings.get? id).map (·.current) =
      ((s.holdings.get? id).map (·.current)).or ([f].find? fun g => g.id = id) := by
  rw [get?_hold, List.find?_singleton]
  by_cases hid : id = f.id
  · subst hid
    cases s.holdings.get? f.id <;> simp
  · have hid' : ¬f.id = id := fun h => hid h.symm
    simp [hid, hid']

theorem fate_hold (s : Session) (f : FlowFile) (id : UInt64) :
    (((s.hold f).holdings.get? id).map (·.fate)).getD .undecided =
      ((s.holdings.get? id).map (·.fate)).getD .undecided := by
  rw [get?_hold]
  by_cases hid : id = f.id
  · subst hid
    cases s.holdings.get? f.id <;> simp
  · rw [if_neg hid]

/-- Of several polled versions of a flow file the first one stands. -/
theorem map_current_foldl_holdPolled (s : Session) (fs : List FlowFile) (id : UInt64) :
    ((fs.foldl holdPolled s).holdings.get? id).map (·.current) =
      ((s.holdings.get? id).map (·.current)).or (fs.find? fun f => f.id = id) := by
  induction fs generalizing s with
  | nil => simp
  | cons f rest ih =>
    rw [List.foldl_cons, ih, get?_holdPolled, List.find?_cons]
    by_cases hid : id = f.id
    · subst hid
      cases hg : s.holdings.get? f.id <;> simp [polledHolding]
    · have hid' : ¬f.id = id := fun h => hid h.symm
      simp [hid, hid']

/-- What is taken from the queue again keeps its fate. -/
theorem fate_foldl_holdPolled (s : Session) (fs : List FlowFile) (id : UInt64) :
    (((fs.foldl holdPolled s).holdings.get? id).map (·.fate)).getD .undecided =
      ((s.holdings.get? id).map (·.fate)).getD .undecided := by
  induction fs generalizing s with
  | nil => rfl
  | cons f rest ih =>
    rw [List.foldl_cons, ih, get?_holdPolled]
    by_cases hid : id = f.id
    · subst hid
      cases hg : s.holdings.get? f.id <;> simp [polledHolding]
    · rw [if_neg hid]

/-- A call takes or makes flow files. -/
theorem Stands.enter {s' : Session} (h : s.Stands calls) (hreflects : s'.Reflects (calls ++ [e]))
    (hobtains : e.1.obtains = true)
    (hcurrent : ∀ id, (s'.holdings.get? id).map (·.current) =
      ((s.holdings.get? id).map (·.current)).or (e.obtained.find? fun f => f.id = id))
    (hfate : ∀ id, ((s'.holdings.get? id).map (·.fate)).getD .undecided =
      ((s.holdings.get? id).map (·.fate)).getD .undecided) : s'.Stands (calls ++ [e]) := by
  have hrevised : e.revised = [] := if_pos hobtains
  have hdecisions : e.decisions = [] := decisions_of_obtains hobtains e.2
  refine ⟨hreflects, fun id => ?_, fun id => ?_⟩
  · rw [Program.standing_append, hcurrent, h.current, hrevised]
    rfl
  · rw [Program.decided_append, hfate, h.fate, hdecisions]
    rfl

/-- A call adds versions and decisions. -/
theorem Stands.develop {t t' : Scope} (h : t.session.Stands calls)
    (hreflects : t'.session.Reflects (calls ++ [e])) (hobtained : e.obtained = [])
    (hdevelops : t.Develops t' e.revised e.decisions) : t'.session.Stands (calls ++ [e]) := by
  -- a call tells nothing of flow files that are not held
  have hother : ∀ id, t.session.holdings.get? id = none →
      lastWith (·.id) e.revised id = none ∧ lastWith Prod.fst e.decisions id = none := by
    intro id hnone
    constructor
    · refine lastWith_eq_none fun hm => ?_
      obtain ⟨f, hf, rfl⟩ := List.mem_map.1 hm
      have hheld := hdevelops.versions f hf
      rw [hnone] at hheld
      cases hheld
    · refine lastWith_eq_none fun hm => ?_
      obtain ⟨d, hd, rfl⟩ := List.mem_map.1 hm
      have hheld := hdevelops.decisions d hd
      rw [hnone] at hheld
      cases hheld
  refine ⟨hreflects, fun id => ?_, fun id => ?_⟩
  · rw [Program.standing_append, hobtained, List.find?_nil, Option.or_none, ← h.current,
      hdevelops.holdings]
    cases hg : t.session.holdings.get? id with
    | none => rw [(hother id hg).1]; rfl
    | some g => cases hlast : lastWith (·.id) e.revised id <;> simp [Holding.develop, hlast]
  · rw [Program.decided_append, ← h.fate, hdevelops.holdings]
    cases hg : t.session.holdings.get? id with
    | none => rw [(hother id hg).2]; rfl
    | some g => rfl

theorem Stands.run {t : Scope} (h : t.session.Stands calls) {op : Operation}
    (hop : op.settles = false) :
    (op.run t).2.session.Stands (calls ++ [(op, (op.run t).1)]) := by
  have hreflects := h.reflects.run hop
  obtain ⟨fs, htakes⟩ | ⟨f, kind, details, hmakes⟩ | hrests := op.course t
  · refine h.enter hreflects (Operation.obtains_of_polls htakes.polls) (fun id => ?_) fun id => ?_
    · rw [htakes.session, htakes.obtained]
      exact map_current_foldl_holdPolled t.session fs id
    · rw [htakes.session]
      exact fate_foldl_holdPolled t.session fs id
  · refine h.enter hreflects (Operation.obtains_of_makes hmakes.makes) (fun id => ?_) fun id => ?_
    · rw [hmakes.session, hmakes.obtained]
      exact current_hold t.session f id
    · rw [hmakes.session]
      exact fate_hold t.session f id
  · have hdevelops := Operation.run_develops hop hrests.polls hrests.fails h.reflects.keyed
    have hrevised : Call.revised (op, (op.run t).1) = Call.answered (op, (op.run t).1) := by
      unfold Call.revised
      split
      · rename_i hobtains
        have hanswered := hrests.obtained
        unfold Call.obtained at hanswered
        cases hr : (op.run t).1 with
        | error e => rfl
        | ok a =>
          rw [hr] at hanswered
          exact ((if_pos hobtains).symm.trans hanswered).symm
      · rfl
    exact h.develop hreflects hrests.obtained (hrevised ▸ hdevelops)

/-- **A session has what its calls tell**, whatever numbers its flow files have. -/
theorem stands : Invariant Stands where
  idle s hs hcounters hevents := by
    refine ⟨reflects.idle s hs hcounters hevents, fun id => ?_, fun id => ?_⟩
    · rw [hs]
      rfl
    · rw [hs]
      rfl
  failed s calls e h := by
    have hsame : Scope.Develops ⟨s, {}⟩ ⟨s, {}⟩ (Call.revised (.commit, .error e))
      (Call.decisions (.commit, .error e)) := .of_holdings rfl
    have hs : Stands (Scope.session ⟨s, {}⟩) calls := h
    exact hs.develop (reflects.failed s calls e h.reflects) rfl hsame
  run _ _ _ hop h := h.run hop

/-- The numbers of what a session holds, in their order. -/
theorem Reflects.keys_eq (h : s.Reflects calls) : s.holdings.keys = Program.taken calls :=
  Table.keys_eq_of_mem fun id => by
    rw [Table.mem_keys, h.held]
    exact (Program.mem_taken calls id).symm

/-- **A commit lets leave what its calls tell.** -/
theorem Stands.leaving_eq (h : s.Stands calls) : s.leaving = delivered calls := by
  unfold leaving delivered
  rw [← h.reflects.keys_eq, Table.values, Table.keys, List.filterMap_map, List.filterMap_map]
  refine List.filterMap_congr fun e he => ?_
  have hg := (s.holdings.mem_entries e.1 e.2).1 he
  have hcurrent := h.current e.1
  have hfate := h.fate e.1
  rw [hg, Option.map_some] at hcurrent hfate
  simp only [Function.comp_apply]
  rw [← hcurrent, ← hfate, Option.getD_some]
  cases e.2.fate <;> rfl

end Session

/-! ## What a session keeps -/

/-- Only the end of a unit of work publishes. -/
theorem Operation.run_routed {op : Operation} (hop : op.settles = false)
    (hclear : op ≠ .clearRouted) (s : Scope) : (op.run s).2.session.routed = s.session.routed := by
  have heffect := op.effect hop s
  generalize (op.run s).2 = s' at heffect
  cases heffect with
  | works hworks => exact hworks.unpublished.routed
  | creates hcreates => exact hcreates.unpublished.routed
  | forgets hforgets => exact absurd hforgets hclear

/-- What a session committed and still holds is what its calls tell. -/
structure Session.Records (s : Session) (calls : List Call) : Prop where
  stands : s.Stands (recent calls)
  routed : ∀ relationship, s.routedTo relationship =
    ((committed calls).filter fun e => e.1 = relationship).map Prod.snd

namespace Session

theorem Records.start : Records {} [] where
  stands := Session.stands.idle {} rfl rfl rfl
  routed _ := rfl

/-- **Each operation keeps the record**, whatever the pool is at which it happens. -/
theorem Records.run {s : Scope} {calls : List Call} (h : s.session.Records calls)
    (op : Operation) : (op.run s).2.session.Records (calls ++ [(op, (op.run s).1)]) := by
  refine ⟨Session.stands.step h.stands op, fun relationship => ?_⟩
  rw [Program.committed_append]
  cases hop : op.settles with
  | false =>
    have hcommits : Call.commits (op, (op.run s).1) = false := by
      cases op <;> first | rfl | cases hop
    rw [hcommits, if_neg Bool.false_ne_true]
    by_cases hclear : op = .clearRouted
    · subst hclear
      rfl
    · have hforgets : Call.forgets (op, (op.run s).1) = false := by
        cases op <;> first | rfl | exact absurd rfl hclear
      rw [hforgets, if_neg Bool.false_ne_true, ← h.routed]
      unfold routedTo
      rw [Operation.run_routed hop hclear]
  | true =>
    obtain rfl | rfl := Operation.commit_or_rollback hop
    · obtain ⟨-, hrun⟩ | ⟨e, hrun⟩ := Operation.run_commit s
      · rw [hrun, Scope.routedTo_publish, h.routed, h.stands.leaving_eq]
        show _ = ((committed calls ++ delivered (recent calls)).filter _).map _
        rw [List.filter_append, List.map_append]
      · rw [hrun]
        exact h.routed relationship
    · exact h.routed relationship

end Session

end ProcessorBench
