import ProcessorBench.Proofs.Session.Develop

/-!
# Latest versions and last decisions

What a session holds is told by the calls of its unit of work: the latest version of a flow file is
the last one that a call answered, and its fate is the last one that a call decided
(`Session.follows`).
-/

set_option autoImplicit false

namespace ProcessorBench

open Program (Call recent)

namespace Program

/-- The latest version of a flow file, as far as the calls tell. -/
def latest (calls : List Call) (id : UInt64) : Option FlowFile :=
  lastWith (·.id) (calls.flatMap Call.answered) id

/-- What is to become of a flow file, as far as the calls tell. -/
def decided (calls : List Call) (id : UInt64) : Fate :=
  ((lastWith Prod.fst (calls.flatMap Call.decisions) id).map Prod.snd).getD .undecided

theorem latest_append (calls : List Call) (e : Call) (id : UInt64) :
    latest (calls ++ [e]) id = (lastWith (·.id) e.answered id).or (latest calls id) := by
  unfold latest
  rw [List.flatMap_append, List.flatMap_singleton, lastWith_append]

theorem decided_append (calls : List Call) (e : Call) (id : UInt64) :
    decided (calls ++ [e]) id =
      ((lastWith Prod.fst e.decisions id).map Prod.snd).getD (decided calls id) := by
  unfold decided
  rw [List.flatMap_append, List.flatMap_singleton, lastWith_append]
  cases lastWith Prod.fst e.decisions id <;> rfl

end Program

/-- The holdings of a session are as its calls say, if no number was taken or made twice. -/
structure Session.Follows (s : Session) (calls : List Call) : Prop where
  reflects : s.Reflects calls
  answered : ∀ f ∈ calls.flatMap Call.answered, (s.holdings.get? f.id).isSome
  decisions : ∀ d ∈ calls.flatMap Call.decisions, (s.holdings.get? d.1).isSome
  told : ((calls.flatMap Call.obtained).map (·.id)).Nodup → ∀ id h, s.holdings.get? id = some h →
    Program.latest calls id = some h.current ∧ Program.decided calls id = h.fate

namespace Session

variable {s : Session}

/-- What is held after flow files were taken that had not been held. -/
theorem get?_foldl_holdPolled_of_new {fs : List FlowFile} (hfs : (fs.map (·.id)).Nodup)
    (hnew : ∀ f ∈ fs, s.holdings.get? f.id = none) {id : UInt64} {h : Holding}
    (hg : (fs.foldl holdPolled s).holdings.get? id = some h) :
    (id ∉ fs.map (·.id) ∧ s.holdings.get? id = some h) ∨
      ∃ f ∈ fs, f.id = id ∧ h = { current := f, polled := some f } := by
  induction fs generalizing s with
  | nil => exact .inl ⟨List.not_mem_nil, hg⟩
  | cons f rest ih =>
    rw [List.map_cons, List.nodup_cons] at hfs
    have hnone := hnew f List.mem_cons_self
    have hrest : ∀ g ∈ rest, (s.holdPolled f).holdings.get? g.id = none := by
      intro g hg
      have hne : g.id ≠ f.id := fun heq => hfs.1 (heq ▸ List.mem_map_of_mem hg)
      rw [get?_holdPolled, if_neg hne]
      exact hnew g (List.mem_cons_of_mem f hg)
    rw [List.foldl_cons] at hg
    obtain ⟨hid, hg⟩ | ⟨g, hg, hid, hh⟩ := ih hfs.2 hrest hg
    · rw [get?_holdPolled] at hg
      by_cases heq : id = f.id
      · subst heq
        rw [if_pos rfl, hnone] at hg
        exact .inr ⟨f, List.mem_cons_self, rfl, (Option.some.inj hg).symm⟩
      · rw [if_neg heq] at hg
        exact .inl ⟨by simp [heq, hid], hg⟩
    · exact .inr ⟨g, List.mem_cons_of_mem f hg, hid, hh⟩

variable {calls : List Call} {e : Call}

/-- A flow file that was not held comes in with the call that took or made it. -/
theorem Follows.told_of_new (h : s.Follows calls) {f : FlowFile}
    (hnew : s.holdings.get? f.id = none) (hf : f ∈ e.answered)
    (hanswered : (e.answered.map (·.id)).Nodup) (hdecisions : e.decisions = []) :
    Program.latest (calls ++ [e]) f.id = some f ∧
      Program.decided (calls ++ [e]) f.id = .undecided := by
  have hnone : lastWith Prod.fst (calls.flatMap Call.decisions) f.id = none :=
    lastWith_eq_none fun hm => by
      obtain ⟨d, hd, hid⟩ := List.mem_map.1 hm
      have hsome := h.decisions d hd
      rw [hid, hnew] at hsome
      cases hsome
  constructor
  · rw [Program.latest_append, lastWith_of_nodup hanswered hf]
    rfl
  · rw [Program.decided_append, hdecisions]
    unfold Program.decided
    rw [hnone]
    rfl

/-- A call takes or makes flow files and decides nothing. -/
theorem Follows.enter {s' : Session} (h : s.Follows calls) (hreflects : s'.Reflects (calls ++ [e]))
    (hobtained : e.obtained = e.answered) (hdecisions : e.decisions = [])
    (hentered : (e.answered.map (·.id)).Nodup →
      (∀ f ∈ e.answered, s.holdings.get? f.id = none) →
      ∀ id h, s'.holdings.get? id = some h →
        (id ∉ e.answered.map (·.id) ∧ s.holdings.get? id = some h) ∨
          ∃ f ∈ e.answered, f.id = id ∧ h.current = f ∧ h.fate = .undecided) :
    s'.Follows (calls ++ [e]) := by
  have hsplit : (calls ++ [e]).flatMap Call.obtained =
      calls.flatMap Call.obtained ++ e.answered := by
    rw [List.flatMap_append, List.flatMap_singleton, hobtained]
  have hheld : ∀ id, (s'.holdings.get? id).isSome ↔
      (s.holdings.get? id).isSome ∨ id ∈ e.answered.map (·.id) := fun id => by
    rw [hreflects.held, hsplit, List.map_append, List.mem_append, h.reflects.held]
  refine ⟨hreflects, fun f hf => ?_, fun d hd => ?_, fun hnodup id g hg => ?_⟩
  · rw [List.flatMap_append, List.flatMap_singleton] at hf
    rcases List.mem_append.1 hf with hf | hf
    · exact (hheld f.id).2 (.inl (h.answered f hf))
    · exact (hheld f.id).2 (.inr (List.mem_map_of_mem hf))
  · rw [List.flatMap_append, List.flatMap_singleton, hdecisions, List.append_nil] at hd
    exact (hheld d.1).2 (.inl (h.decisions d hd))
  · rw [hsplit, List.map_append, List.nodup_append] at hnodup
    obtain ⟨hcalls, hanswered, hapart⟩ := hnodup
    have hnew : ∀ f ∈ e.answered, s.holdings.get? f.id = none := by
      intro f hf
      rw [← Option.not_isSome_iff_eq_none, h.reflects.held]
      exact fun hm => hapart f.id hm f.id (List.mem_map_of_mem hf) rfl
    obtain ⟨hid, hg⟩ | ⟨f, hf, rfl, hcurrent, hfate⟩ := hentered hanswered hnew id g hg
    · obtain ⟨hlatest, hdecided⟩ := h.told hcalls id g hg
      rw [Program.latest_append, Program.decided_append, lastWith_eq_none hid, hdecisions]
      exact ⟨hlatest, hdecided⟩
    · rw [hcurrent, hfate]
      exact h.told_of_new (hnew f hf) hf hanswered hdecisions

/-- A call adds versions and decisions. -/
theorem Follows.develop {t t' : Scope} (h : t.session.Follows calls)
    (hreflects : t'.session.Reflects (calls ++ [e])) (hobtained : e.obtained = [])
    (hdevelops : t.Develops t' e.answered e.decisions) :
    t'.session.Follows (calls ++ [e]) := by
  refine ⟨hreflects, fun f hf => ?_, fun d hd => ?_, fun hnodup id g hg => ?_⟩
  · rw [List.flatMap_append, List.flatMap_singleton] at hf
    rw [hdevelops.isSome]
    exact (List.mem_append.1 hf).elim (h.answered f) (hdevelops.versions f)
  · rw [List.flatMap_append, List.flatMap_singleton] at hd
    rw [hdevelops.isSome]
    exact (List.mem_append.1 hd).elim (h.decisions d) (hdevelops.decisions d)
  · rw [List.flatMap_append, List.flatMap_singleton, hobtained, List.append_nil] at hnodup
    rw [hdevelops.holdings] at hg
    obtain ⟨g', hg', rfl⟩ := Option.map_eq_some_iff.1 hg
    obtain ⟨hlatest, hdecided⟩ := h.told hnodup id g' hg'
    rw [Program.latest_append, Program.decided_append, hlatest, hdecided]
    unfold Holding.develop
    cases lastWith (·.id) e.answered id <;> exact ⟨rfl, rfl⟩

/-- A call that takes or makes flow files decides nothing. -/
theorem decisions_of_obtains {op : Operation} (hop : op.obtains = true)
    (r : Except Error Answer) : Call.decisions (op, r) = [] := by
  cases op <;> first | rfl | cases hop

theorem Follows.run {t : Scope} (h : t.session.Follows calls) {op : Operation}
    (hop : op.settles = false) :
    (op.run t).2.session.Follows (calls ++ [(op, (op.run t).1)]) := by
  have hreflects := h.reflects.run hop
  obtain ⟨fs, htakes⟩ | ⟨f, kind, details, hmakes⟩ | hrests := op.course t
  · have hdecisions := decisions_of_obtains (Operation.obtains_of_polls htakes.polls) (op.run t).1
    refine h.enter hreflects ?_ hdecisions fun hnodup hnew id g hg => ?_
    · rw [htakes.obtained, htakes.answer]
      rfl
    · rw [htakes.session] at hg
      rw [htakes.answer] at hnodup hnew ⊢
      obtain hold | ⟨f, hf, hid, rfl⟩ := get?_foldl_holdPolled_of_new hnodup hnew hg
      · exact .inl hold
      · exact .inr ⟨f, hf, hid, rfl, rfl⟩
  · have hdecisions := decisions_of_obtains (Operation.obtains_of_makes hmakes.makes) (op.run t).1
    refine h.enter hreflects ?_ hdecisions fun hnodup hnew id g hg => ?_
    · rw [hmakes.obtained, hmakes.answer]
      rfl
    · rw [hmakes.session] at hg
      rw [hmakes.answer] at hnew ⊢
      have hnone := hnew f (List.mem_singleton_self f)
      have hg' : (t.session.hold f).holdings.get? id = some g := hg
      rw [get?_hold] at hg'
      by_cases hid : id = f.id
      · rw [if_pos hid, hnone] at hg'
        exact .inr ⟨f, List.mem_singleton_self f, hid.symm, by cases hg'; rfl, by cases hg'; rfl⟩
      · rw [if_neg hid] at hg'
        exact .inl ⟨by simpa [Call.answered, Answer.files] using hid, hg'⟩
  · exact h.develop hreflects hrests.obtained
      (Operation.run_develops hop hrests.polls hrests.fails h.reflects.keyed)

/-- **The holdings of a session are as its calls say.** -/
theorem follows : Invariant Follows where
  idle s hs _ _ := by
    refine ⟨.of_empty hs, by simp, by simp, fun _ id h hg => ?_⟩
    rw [hs] at hg
    cases hg
  failed s calls e h := by
    have hsame : Scope.Develops ⟨s, {}⟩ ⟨s, {}⟩ (Call.answered (.commit, .error e))
      (Call.decisions (.commit, .error e)) := .of_holdings rfl
    have hs : Follows (Scope.session ⟨s, {}⟩) calls := h
    exact hs.develop (reflects.failed s calls e h.reflects) rfl hsame
  run _ _ _ hop h := h.run hop

end Session

end ProcessorBench
