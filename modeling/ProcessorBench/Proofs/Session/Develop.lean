import ProcessorBench.Proofs.Session.Handle

/-!
# Changes and decisions

A session keeps for each flow file its latest version and the fate that was last decided for it.
What a call does to them can be told by the call and its answer.

* `Program.Call.answered`, `Program.Call.decisions` — the versions that a call answers, and the
  fates that it decides.
* `Operation.run_edits`, `Operation.run_decides` — what a call does that changes a flow file, or
  decides what becomes of it.
* `Scope.Develops` — the holdings after versions were added and fates decided;
  `Operation.run_develops` tells what each call adds.
-/

set_option autoImplicit false

namespace ProcessorBench

open Program (Call recent)

/-! ## What calls say -/

namespace Program

/-- The flow files that a call answered: what it took or made, and new versions. -/
def Call.answered : Call → List FlowFile
  | (_, .ok a) => a.files
  | (_, .error _) => []

/-- The fates that a call decided, each with the number of the flow file.  Of flow files that were
to be routed in a row, those before the one that was turned away were routed. -/
def Call.decisions : Call → List (UInt64 × Fate)
  | (.route f relationship, .ok _) => [(f.id, .route relationship)]
  | (.routeAll fs relationship, .ok _) => fs.map fun f => (f.id, .route relationship)
  | (.routeAll fs relationship, .error (.flowFile fault)) =>
    (fs.takeWhile fun f => f.id ≠ fault.id).map fun f => (f.id, .route relationship)
  | (.giveBack f, .ok _) => [(f.id, .giveBack)]
  | (.drop f, .ok _) => [(f.id, .drop)]
  | _ => []

end Program

/-- The last entry with the number. -/
def lastWith {α : Type} (number : α → UInt64) (l : List α) (id : UInt64) : Option α :=
  (l.filter fun a => number a = id).getLast?

section LastWith

variable {α : Type} {number : α → UInt64} {id : UInt64}

/-- The last entry counts that was added, if one was. -/
theorem lastWith_append (l l' : List α) :
    lastWith number (l ++ l') id = (lastWith number l' id).or (lastWith number l id) := by
  unfold lastWith
  rw [List.filter_append, List.getLast?_append]

theorem lastWith_singleton (a : α) :
    lastWith number [a] id = if number a = id then some a else none := by
  unfold lastWith
  by_cases hid : number a = id <;> simp [hid]

theorem lastWith_eq_none {l : List α} (h : id ∉ l.map number) : lastWith number l id = none := by
  unfold lastWith
  rw [List.getLast?_eq_none_iff, List.filter_eq_nil_iff]
  intro a ha
  simpa using fun hid : number a = id => h (List.mem_map.2 ⟨a, ha, hid⟩)

theorem mem_of_lastWith {l : List α} {a : α} (h : lastWith number l id = some a) :
    a ∈ l ∧ number a = id := by
  have hmem := List.mem_filter.1 (List.mem_of_getLast? h)
  exact ⟨hmem.1, by simpa using hmem.2⟩

/-- Where numbers are different, each entry is the last one with its number. -/
theorem lastWith_of_nodup {l : List α} (hl : (l.map number).Nodup) {a : α} (ha : a ∈ l) :
    lastWith number l (number a) = some a := by
  induction l with
  | nil => cases ha
  | cons b rest ih =>
    rw [List.map_cons, List.nodup_cons] at hl
    rw [← List.singleton_append, lastWith_append]
    rcases List.mem_cons.1 ha with rfl | ha
    · rw [lastWith_eq_none hl.1, lastWith_singleton, if_pos rfl]
      rfl
    · rw [ih hl.2 ha]
      rfl

end LastWith

/-! ## Holdings after changes and decisions -/

/-- A holding after versions were added and fates decided. -/
def Holding.develop (id : UInt64) (versions : List FlowFile) (decisions : List (UInt64 × Fate))
    (h : Holding) : Holding :=
  { h with
    current := (lastWith (·.id) versions id).getD h.current
    fate := ((lastWith Prod.fst decisions id).map Prod.snd).getD h.fate }

theorem Holding.develop_append (id : UInt64) (versions versions' : List FlowFile)
    (decisions decisions' : List (UInt64 × Fate)) (h : Holding) :
    h.develop id (versions ++ versions') (decisions ++ decisions') =
      (h.develop id versions decisions).develop id versions' decisions' := by
  unfold develop
  rw [lastWith_append, lastWith_append]
  cases lastWith (·.id) versions' id <;> cases lastWith Prod.fst decisions' id <;> rfl

/-- The same flow files are held, with further versions and decisions. -/
structure Scope.Develops (s s' : Scope) (versions : List FlowFile)
    (decisions : List (UInt64 × Fate)) : Prop where
  holdings : ∀ id, s'.session.holdings.get? id =
    (s.session.holdings.get? id).map (Holding.develop id versions decisions)
  versions : ∀ f ∈ versions, (s.session.holdings.get? f.id).isSome
  decisions : ∀ d ∈ decisions, (s.session.holdings.get? d.1).isSome

namespace Scope

variable {s s' : Scope}

theorem Develops.of_holdings (h : s'.session.holdings = s.session.holdings) :
    s.Develops s' [] [] := by
  refine ⟨fun id => ?_, by simp, by simp⟩
  rw [h]
  exact Option.map_id'.symm

theorem Develops.isSome {versions : List FlowFile} {decisions : List (UInt64 × Fate)}
    (h : s.Develops s' versions decisions) (id : UInt64) :
    (s'.session.holdings.get? id).isSome = (s.session.holdings.get? id).isSome := by
  rw [h.holdings, Option.isSome_map]

theorem Develops.trans {t : Scope} {versions versions' : List FlowFile}
    {decisions decisions' : List (UInt64 × Fate)} (h : s.Develops t versions decisions)
    (h' : t.Develops s' versions' decisions') :
    s.Develops s' (versions ++ versions') (decisions ++ decisions') := by
  refine ⟨fun id => ?_, fun f hf => ?_, fun d hd => ?_⟩
  · rw [h'.holdings, h.holdings, Option.map_map]
    congr 1
    funext g
    exact (g.develop_append id versions versions' decisions decisions').symm
  · rcases List.mem_append.1 hf with hf | hf
    · exact h.versions f hf
    · exact h.isSome f.id ▸ h'.versions f hf
  · rcases List.mem_append.1 hd with hd | hd
    · exact h.decisions d hd
    · exact h.isSome d.1 ▸ h'.decisions d hd

/-- One holding is exchanged for a further developed one. -/
theorem Develops.of_insert {id : UInt64} {h : Holding} {versions : List FlowFile}
    {decisions : List (UInt64 × Fate)} (hg : s.session.holdings.get? id = some h)
    (hholdings : ∀ k, s'.session.holdings.get? k =
      if k = id then some (h.develop id versions decisions) else s.session.holdings.get? k)
    (hversions : ∀ f ∈ versions, f.id = id) (hdecisions : ∀ d ∈ decisions, d.1 = id) :
    s.Develops s' versions decisions := by
  refine ⟨fun k => ?_, fun f hf => ?_, fun d hd => ?_⟩
  · rw [hholdings]
    by_cases hk : k = id
    · subst hk
      rw [if_pos rfl, hg, Option.map_some]
    · -- other numbers have no part in this
      have hversion : lastWith (·.id) versions k = none := lastWith_eq_none fun hm => by
        obtain ⟨f, hf, hid⟩ := List.mem_map.1 hm
        exact hk (hid.symm.trans (hversions f hf))
      have hdecision : lastWith Prod.fst decisions k = none := lastWith_eq_none fun hm => by
        obtain ⟨d, hd, hid⟩ := List.mem_map.1 hm
        exact hk (hid.symm.trans (hdecisions d hd))
      rw [if_neg hk]
      unfold Holding.develop
      rw [hversion, hdecision]
      exact Option.map_id'.symm
  · rw [hversions f hf, hg, Option.isSome_some]
  · rw [hdecisions d hd, hg, Option.isSome_some]

end Scope

/-! ## What each call adds -/

namespace Operation

/-- The operation gives a flow file another version. -/
def edits : Operation → Bool
  | importBytes .. | importStream .. | write .. | putAttribute .. | putAttributes ..
  | removeAttribute .. => true
  | _ => false

/-- What the operation makes of the attributes of the flow file that it changes. -/
def reattribute : Operation → Attributes → Attributes
  | putAttribute _ key value, a => a.insert key value
  | putAttributes _ attributes, a => a.merge attributes
  | removeAttribute _ key, a => a.erase key
  | _, a => a

/-- The operation gave the held flow file `f` its next version `g`. -/
structure Edited (op : Operation) (s t : Scope) (f g : FlowFile) (h : Holding) : Prop where
  named : op.names = [f]
  held : s.session.held f = .ok h
  number : g.id = h.current.id
  attributes : g.attributes = op.reattribute h.current.attributes
  holdings : ∀ id, t.session.holdings.get? id =
    if id = h.current.id then some { h with current := g } else s.session.holdings.get? id

/-- The operation left the flow file as it is. -/
theorem Edited.of_same {op : Operation} {s : Scope} {f : FlowFile} {h : Holding}
    (hs : s.session.Keyed) (hnamed : op.names = [f]) (hheld : s.session.held f = .ok h)
    (hattributes : op.reattribute h.current.attributes = h.current.attributes) :
    op.Edited s s f h.current h := by
  refine ⟨hnamed, hheld, rfl, hattributes.symm, fun id => ?_⟩
  split
  · rename_i hid
    rw [hid]
    exact (hs.open_of_held hheld).1
  · rfl

theorem Edited.of_content {op : Operation} {s : Scope} {f : FlowFile} {h : Holding}
    (hnamed : op.names = [f]) (hheld : s.session.held f = .ok h)
    (hattributes : op.reattribute h.current.attributes = h.current.attributes)
    (bytes : List UInt8) :
    op.Edited s (s.replaceContent h bytes).2 f (s.replaceContent h bytes).1 h :=
  ⟨hnamed, hheld, rfl, hattributes.symm, Session.get?_revise _ h _⟩

theorem Edited.of_attributes {op : Operation} {s : Scope} {f : FlowFile} {h : Holding}
    (hnamed : op.names = [f]) (hheld : s.session.held f = .ok h) (details : Text) :
    op.Edited s (s.replaceAttributes h (op.reattribute h.current.attributes) details).2 f
      (s.replaceAttributes h (op.reattribute h.current.attributes) details).1 h :=
  ⟨hnamed, hheld, rfl, rfl, Session.get?_revise _ h _⟩

theorem edited_of_withHeld (op : Operation) {s : Scope} {f : FlowFile}
    {k : Holding → Except Error FlowFile × Scope}
    (hrun : op.run s = run.answer .flowFile (s.withHeld f k))
    (hk : ∀ h, s.session.held f = .ok h → (∃ e, k h = (.error e, s)) ∨
      ∃ g t, k h = (.ok g, t) ∧ op.Edited s t f g h) :
    (∃ e, op.run s = (.error e, s)) ∨
      ∃ f g h t, op.run s = (.ok (.flowFile g), t) ∧ op.Edited s t f g h := by
  rw [hrun]
  obtain ⟨fault, -, hheld⟩ | ⟨h, hheld, hgoes⟩ := Scope.withHeld_cases s f k
  · rw [hheld]
    exact .inl ⟨_, rfl⟩
  · rw [hgoes]
    obtain ⟨e, he⟩ | ⟨g, t, hg, hedited⟩ := hk h hheld
    · rw [he]
      exact .inl ⟨e, rfl⟩
    · rw [hg]
      exact .inr ⟨f, g, h, t, rfl, hedited⟩

/-- **An operation that is to change a flow file fails and does nothing, or answers the next
version.** -/
theorem run_edits {op : Operation} (hop : op.edits = true) {s : Scope} (hs : s.session.Keyed) :
    (∃ e, op.run s = (.error e, s)) ∨
      ∃ f g h t, op.run s = (.ok (.flowFile g), t) ∧ op.Edited s t f g h := by
  cases op with
  | importBytes bytes f =>
    exact edited_of_withHeld (.importBytes bytes f) rfl fun h hheld =>
      .inr ⟨_, _, rfl, .of_content rfl hheld rfl bytes⟩
  | importStream stream f =>
    refine edited_of_withHeld (.importStream stream f) rfl fun h hheld => ?_
    cases stream with
    | broken => exact .inl ⟨_, rfl⟩
    | readable bytes =>
      exact .inr ⟨_, _, Scope.importBytes_of_held hheld bytes, .of_content rfl hheld rfl bytes⟩
  | write writer f =>
    cases writer with
    | none => exact .inl ⟨_, rfl⟩
    | some writer =>
      refine edited_of_withHeld (.write (some writer) f) rfl fun h hheld => ?_
      cases writer h.current.content.bytes with
      | error e => exact .inl ⟨e, rfl⟩
      | ok bytes => exact .inr ⟨_, _, rfl, .of_content rfl hheld rfl bytes⟩
  | putAttribute f key value =>
    exact edited_of_withHeld (.putAttribute f key value) rfl fun h hheld =>
      .inr ⟨_, _, rfl, .of_attributes rfl hheld key⟩
  | putAttributes f attributes =>
    refine edited_of_withHeld (.putAttributes f attributes) rfl fun h hheld => .inr ?_
    by_cases hempty : attributes.isEmpty = true
    · rw [if_pos hempty]
      exact ⟨_, _, rfl, .of_same hs rfl hheld (Table.merge_of_isEmpty hempty)⟩
    · rw [if_neg hempty]
      exact ⟨_, _, rfl, .of_attributes rfl hheld []⟩
  | removeAttribute f key =>
    refine edited_of_withHeld (.removeAttribute f key) rfl fun h hheld => .inr ?_
    by_cases hkey : h.current.attributes.contains key = true
    · rw [if_pos hkey]
      exact ⟨_, _, rfl, .of_attributes rfl hheld key⟩
    · rw [if_neg hkey]
      exact ⟨_, _, rfl, .of_same hs rfl hheld (Table.erase_of_not_contains hkey)⟩
  | _ => cases hop

/-- The operation decides what becomes of one flow file. -/
def decides : Operation → Bool
  | route .. | giveBack _ | drop _ => true
  | _ => false

/-- The operation decided the fate of the held flow file `f`. -/
structure Settled (op : Operation) (s t : Scope) (f : FlowFile) (h : Holding) (fate : Fate) :
    Prop where
  held : s.session.held f = .ok h
  decided : Call.decisions (op, .ok .done) = [(f.id, fate)]
  holdings : t.session.holdings = (s.session.assign h fate).holdings

/-- **An operation that is to decide what becomes of a flow file fails and does nothing, or decides
it.** -/
theorem run_decides {op : Operation} (hop : op.decides = true) (s : Scope) :
    (∃ e, op.run s = (.error e, s)) ∨
      ∃ f h fate t, op.run s = (.ok .done, t) ∧ op.Settled s t f h fate := by
  cases op with
  | route f relationship =>
    obtain ⟨fault, -, -, hrun⟩ | ⟨h, hheld, -, hrun⟩ := s.route_cases f relationship
    · exact .inl ⟨_, by rw [run, hrun]; rfl⟩
    · exact .inr ⟨f, h, .route relationship, _, by rw [run, hrun]; rfl, hheld, rfl, rfl⟩
  | giveBack f =>
    rw [run, Scope.giveBack]
    obtain ⟨fault, -, hrun⟩ | ⟨h, hheld, hrun⟩ := Scope.withHeld_cases s f fun h =>
      if h.polled.isSome then (.ok (), { s with session := s.session.assign h .giveBack })
      else (.error (.flowFile (.notFromQueue f.id)), s)
    · rw [hrun]
      exact .inl ⟨_, rfl⟩
    · rw [hrun]
      split
      · exact .inr ⟨f, h, .giveBack, _, rfl, hheld, rfl, rfl⟩
      · exact .inl ⟨_, rfl⟩
  | drop f =>
    rw [run, Scope.drop]
    obtain ⟨fault, -, hrun⟩ | ⟨h, hheld, hrun⟩ := Scope.withHeld_cases s f fun h =>
      (.ok (), { s with session := (s.session.assign h .drop).record .drop f.id })
    · rw [hrun]
      exact .inl ⟨_, rfl⟩
    · rw [hrun]
      exact .inr ⟨f, h, .drop, _, rfl, hheld, rfl, rfl⟩
  | _ => cases hop

end Operation

namespace Scope

theorem develops_assign {s t : Scope} (hs : s.session.Keyed) {f : FlowFile} {h : Holding}
    (hheld : s.session.held f = .ok h) (fate : Fate)
    (ht : t.session.holdings = (s.session.assign h fate).holdings) :
    s.Develops t [] [(f.id, fate)] := by
  have hg := (Session.held_eq_ok.1 hheld).1
  have hcurrent := hs.current _ h hg
  refine .of_insert hg (fun k => ?_) (by simp) (by simp)
  rw [ht, Session.get?_assign, hcurrent]
  unfold Holding.develop
  rw [lastWith_singleton]
  simp [lastWith]

/-- What could be routed still can after another routing. -/
theorem Routable.assign {s : Scope} {relationship : Text} {id : UInt64}
    (hr : s.Routable relationship id) (h : Holding) :
    Routable { s with session := s.session.assign h (.route relationship) } relationship id := by
  obtain ⟨hd, g, hg, hkept⟩ := hr
  refine ⟨hd, ?_⟩
  rw [Session.get?_assign]
  split
  · exact ⟨_, rfl, by simp⟩
  · exact ⟨g, hg, hkept⟩

/-- Routing flow files in a row decides for all of them, or for those before the one that is turned
away.  That one could not be routed from the start. -/
theorem routeAll_cases {s : Scope} (hs : s.session.Keyed) (fs : List FlowFile)
    (relationship : Text) :
    (∃ t, s.routeAll fs relationship = (.ok (), t) ∧
      s.Develops t [] (fs.map fun f => (f.id, .route relationship))) ∨
    ∃ (fault : Error.FlowFileFault) (t : Scope),
      s.routeAll fs relationship = (.error (.flowFile fault), t) ∧
      ¬s.Routable relationship fault.id ∧
      s.Develops t []
        ((fs.takeWhile fun f => f.id ≠ fault.id).map fun f => (f.id, .route relationship)) := by
  induction fs generalizing s with
  | nil => exact .inl ⟨s, rfl, .of_holdings rfl⟩
  | cons f rest ih =>
    rw [routeAll]
    obtain ⟨fault, hid, hnot, hroute⟩ | ⟨h, hheld, hr, hroute⟩ := s.route_cases f relationship
    · rw [hroute]
      refine .inr ⟨fault, s, rfl, hid ▸ hnot, ?_⟩
      rw [List.takeWhile_cons_of_neg (by simp [hid])]
      exact .of_holdings rfl
    · rw [hroute]
      have hkeyed := (Tends.decide (.route relationship) hheld hr.1).keyed hs
      have hfirst : s.Develops { s with session := s.session.assign h (.route relationship) } []
        [(f.id, .route relationship)] := develops_assign hs hheld (.route relationship) rfl
      obtain ⟨t, ht, hrest⟩ | ⟨fault, t, ht, hnot, hrest⟩ := ih hkeyed
      · exact .inl ⟨t, ht, hfirst.trans hrest⟩
      · -- the flow file that was just routed can be routed again, so it is not in the way
        have hne : f.id ≠ fault.id := fun heq => hnot (heq ▸ hr.assign h)
        refine .inr ⟨fault, t, ht, fun hrf => hnot (hrf.assign h), ?_⟩
        rw [List.takeWhile_cons_of_pos (by simpa using hne)]
        exact hfirst.trans hrest

end Scope

namespace Operation

variable {op : Operation} {s : Scope}

theorem develops_of_edits (hop : op.edits = true) (hs : s.session.Keyed) :
    s.Develops (op.run s).2 (Call.answered (op, (op.run s).1))
      (Call.decisions (op, (op.run s).1)) := by
  have hnone (r : Except Error Answer) : Call.decisions (op, r) = [] := by
    cases op <;> first | rfl | cases hop
  rw [hnone]
  obtain ⟨e, hrun⟩ | ⟨f, g, h, t, hrun, hedited⟩ := run_edits hop hs
  · rw [hrun]
    exact .of_holdings rfl
  · have hanswered : Call.answered (op, .ok (.flowFile g)) = [g] := rfl
    rw [hrun, hanswered]
    refine .of_insert (hs.open_of_held hedited.held).1 (fun k => ?_) (by simp [hedited.number])
      (by simp)
    rw [hedited.holdings]
    unfold Holding.develop
    rw [lastWith_singleton, if_pos hedited.number]
    rfl

theorem develops_of_decides (hop : op.decides = true) (hs : s.session.Keyed) :
    s.Develops (op.run s).2 (Call.answered (op, (op.run s).1))
      (Call.decisions (op, (op.run s).1)) := by
  obtain ⟨e, hrun⟩ | ⟨f, h, fate, t, hrun, hsettled⟩ := run_decides hop s
  · have hnone : Call.decisions (op, .error e) = [] := by
      cases op <;> first | rfl | cases hop
    rw [hrun, hnone]
    exact .of_holdings rfl
  · rw [hrun, hsettled.decided]
    exact Scope.develops_assign hs hsettled.held fate hsettled.holdings

/-- An operation that was to make a flow file, and did not, did nothing. -/
theorem run_of_not_made (hmakes : op.makes = true) (hmade : op.made s = false) :
    ∃ e, op.run s = (.error e, s) := by
  unfold made at hmade
  rw [hmakes, Bool.true_and] at hmade
  cases op with
  | create => cases hmade
  | createChild f | clone f =>
    simp only [run, run.answer, Scope.createChild, Scope.clone, Scope.withHeld] at hmade ⊢
    cases hheld : s.session.held f with
    | error e => exact ⟨e, rfl⟩
    | ok h =>
      rw [hheld] at hmade
      cases hmade
  | _ => cases hmakes

/-- **A call that neither takes nor makes flow files adds the versions that it answers and the fates
that it decides.** -/
theorem run_develops (hop : op.settles = false) (hpolls : op.polls = false)
    (hmade : op.made s = false) (hs : s.session.Keyed) :
    s.Develops (op.run s).2 (Call.answered (op, (op.run s).1))
      (Call.decisions (op, (op.run s).1)) := by
  cases op with
  | importBytes | importStream | write | putAttribute | putAttributes | removeAttribute =>
    exact develops_of_edits rfl hs
  | route | giveBack | drop => exact develops_of_decides rfl hs
  | routeAll fs relationship =>
    obtain ⟨t, hrun, hdevelops⟩ | ⟨fault, t, hrun, -, hdevelops⟩ :=
      Scope.routeAll_cases hs fs relationship
    · rw [run, hrun]
      exact hdevelops
    · rw [run, hrun]
      exact hdevelops
  | create | createChild | clone =>
    obtain ⟨e, hrun⟩ := run_of_not_made rfl hmade
    rw [hrun]
    exact .of_holdings rfl
  | read f =>
    rw [run, Scope.read]
    obtain ⟨fault, -, hrun⟩ | ⟨h, -, hrun⟩ := Scope.withHeld_cases s f fun h =>
      (.ok h.current.content.bytes, s)
    · rw [hrun]
      exact .of_holdings rfl
    · rw [hrun]
      exact .of_holdings rfl
  | adjustCounter name delta immediate => cases immediate <;> exact .of_holdings rfl
  | clearRouted => exact .of_holdings rfl
  | poll | pollUpTo => cases hpolls
  | commit | rollback => cases hop

/-- An operation that neither takes, makes nor changes flow files answers none. -/
theorem answered_of_not_edits (hop : op.settles = false) (hpolls : op.polls = false)
    (hmade : op.made s = false) (hedits : op.edits = false) :
    Call.answered (op, (op.run s).1) = [] := by
  have hmap {α : Type} (a : α → Answer) (ha : ∀ x, (a x).files = []) (r : Except Error α) :
      Call.answered (op, r.map a) = [] := by
    cases r with
    | error e => rfl
    | ok x => exact ha x
  cases op with
  | read f => exact hmap .content (fun _ => rfl) _
  | route | routeAll | giveBack | drop => exact hmap (fun _ => .done) (fun _ => rfl) _
  | create | createChild | clone =>
    obtain ⟨e, hrun⟩ := run_of_not_made rfl hmade
    rw [hrun]
    rfl
  | adjustCounter | clearRouted => rfl
  | poll | pollUpTo => cases hpolls
  | commit | rollback => cases hop
  | importBytes | importStream | write | putAttribute | putAttributes | removeAttribute =>
    cases hedits

theorem polls_of_makes (hop : op.makes = true) : op.polls = false := by
  cases op <;> first | rfl | cases hop

theorem obtains_of_polls (hop : op.polls = true) : op.obtains = true := by
  cases op <;> first | rfl | cases hop

theorem obtains_of_makes (hop : op.makes = true) : op.obtains = true := by
  cases op <;> first | rfl | cases hop

/-- The end of a unit of work answers no flow files. -/
theorem answered_of_settles (hop : op.settles = true) (s : Scope) :
    Call.answered (op, (op.run s).1) = [] := by
  obtain rfl | rfl := commit_or_rollback hop
  · obtain ⟨-, hrun⟩ | ⟨e, hrun⟩ := run_commit s <;> rw [hrun] <;> rfl
  · rfl

/-- What a call answers is held after it. -/
theorem run_answered_held (hs : s.session.Keyed) {f : FlowFile}
    (hf : f ∈ Call.answered (op, (op.run s).1)) :
    ((op.run s).2.session.holdings.get? f.id).isSome := by
  cases hop : op.settles with
  | true =>
    rw [answered_of_settles hop] at hf
    cases hf
  | false =>
    obtain ⟨fs, htakes⟩ | ⟨g, kind, details, hmakes⟩ | hrests := op.course s
    · rw [htakes.answer] at hf
      exact run_obtained (obtains_of_polls htakes.polls) htakes.answer hf
    · rw [hmakes.answer] at hf
      exact run_obtained (obtains_of_makes hmakes.makes) hmakes.answer hf
    · have hdevelops := run_develops hop hrests.polls hrests.fails hs
      rw [hdevelops.isSome]
      exact hdevelops.versions f hf

end Operation

end ProcessorBench
