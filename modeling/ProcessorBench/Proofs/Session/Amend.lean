import ProcessorBench.Proofs.Session.Develop
import ProcessorBench.Proofs.Session.Provenance
import ProcessorBench.Proofs.Session.Refusal

/-!
# Changes through old versions

An operation finds a flow file by its number and works on the version that the session holds, never
on the one that the caller passes.  So no change is lost, through however old a version it is made.

* `Operation.run_congr` — operations that name the same numbers do the same.
* `Operation.amend` — what a change makes of attributes and content; `Operation.run_applied`: the
  session then holds just that, and holds everything else as before.
* `Session.Latest.proceed` — after any operations a flow file is what the changes to it make of it,
  in the order of the calls.
* `Session.no_lost_update` — this for every session that operations lead to, with what a caller
  reads and what a commit publishes.
-/

set_option autoImplicit false

namespace ProcessorBench

open Program (Call)

/-! ## Only numbers count -/

/-- A version of which only the number is told. -/
def FlowFile.bare (f : FlowFile) : FlowFile :=
  { id := f.id, entryDate := 0, attributes := ∅, content := default }

/-- The operation, with the flow files that it names told by their numbers alone. -/
def Operation.bare : Operation → Operation
  | createChild f => createChild f.bare
  | clone f => clone f.bare
  | importBytes bytes f => importBytes bytes f.bare
  | importStream stream f => importStream stream f.bare
  | write writer f => write writer f.bare
  | putAttribute f key value => putAttribute f.bare key value
  | putAttributes f attributes => putAttributes f.bare attributes
  | removeAttribute f key => removeAttribute f.bare key
  | read f => read f.bare
  | route f relationship => route f.bare relationship
  | routeAll fs relationship => routeAll (fs.map FlowFile.bare) relationship
  | giveBack f => giveBack f.bare
  | drop f => drop f.bare
  | op => op

theorem Scope.routeAll_bare (s : Scope) (fs : List FlowFile) (relationship : Text) :
    s.routeAll (fs.map FlowFile.bare) relationship = s.routeAll fs relationship := by
  induction fs generalizing s with
  | nil => rfl
  | cons f rest ih =>
    rw [List.map_cons, routeAll, routeAll, show s.route f.bare relationship = s.route f relationship
      from rfl]
    split
    · rfl
    · exact ih _

namespace Operation

theorem run_bare (op : Operation) (s : Scope) : op.bare.run s = op.run s := by
  cases op with
  | routeAll fs relationship =>
    show run.answer _ (s.routeAll (fs.map FlowFile.bare) relationship) = _
    rw [Scope.routeAll_bare]
    rfl
  | _ => rfl

/-- **Operations that name the same numbers do the same**, whatever the versions are. -/
theorem run_congr {op op' : Operation} (h : op.bare = op'.bare) (s : Scope) :
    op.run s = op'.run s := by
  rw [← op.run_bare, h, op'.run_bare]

/-! ## What a change makes of a flow file -/

/-- The operation changes attributes. -/
def reattributes : Operation → Bool
  | putAttribute .. | putAttributes .. | removeAttribute .. => true
  | _ => false

/-- What the operation makes of the content of the flow file that it changes.  A writer that gives
up makes nothing of it. -/
def recontent : Operation → List UInt8 → List UInt8
  | importBytes bytes _, _ => bytes
  | importStream (.readable bytes) _, _ => bytes
  | write (some writer) _, bytes =>
    match writer bytes with
    | .ok bytes' => bytes'
    | .error _ => bytes
  | _, bytes => bytes

/-- What the operation makes of attributes and content. -/
def amend (op : Operation) (c : Attributes × List UInt8) : Attributes × List UInt8 :=
  (op.reattribute c.1, op.recontent c.2)

/-- The operation is a change of the flow file with the number. -/
def changes (op : Operation) (id : UInt64) : Bool :=
  op.edits && op.names.any fun f => f.id = id

/-- What operations make of the flow file with the number, each of those that change it after the
other. -/
def amendAll (ops : List Operation) (id : UInt64) (c : Attributes × List UInt8) :
    Attributes × List UInt8 :=
  (ops.filter fun op => op.changes id).foldl (fun c op => op.amend c) c

theorem amendAll_append (ops ops' : List Operation) (id : UInt64)
    (c : Attributes × List UInt8) :
    amendAll (ops ++ ops') id c = amendAll ops' id (amendAll ops id c) := by
  unfold amendAll
  rw [List.filter_append, List.foldl_append]

/-- A content has nothing to do with a change of attributes, nor the other way round. -/
theorem reattribute_of_not_reattributes {op : Operation} (h : op.reattributes = false)
    (a : Attributes) : op.reattribute a = a := by
  cases op <;> first | rfl | cases h

end Operation

/-- The version `w` is what the operations make of the version `v`. -/
structure FlowFile.Amended (ops : List Operation) (v w : FlowFile) : Prop where
  number : w.id = v.id
  entryDate : w.entryDate = v.entryDate
  parts : (w.attributes, w.content.bytes) =
    Operation.amendAll ops v.id (v.attributes, v.content.bytes)
  /-- Changes of attributes keep the content, even the buffer. -/
  content : (∀ op ∈ ops, op.changes v.id = true → op.reattributes = true) → w.content = v.content
  /-- Changes of the content keep the attributes. -/
  attributes : (∀ op ∈ ops, op.changes v.id = true → op.reattributes = false) →
    w.attributes = v.attributes

theorem FlowFile.Amended.of_unchanged {ops : List Operation} {v : FlowFile}
    (h : ∀ op ∈ ops, op.changes v.id = false) : v.Amended ops v := by
  refine ⟨rfl, rfl, ?_, fun _ => rfl, fun _ => rfl⟩
  unfold Operation.amendAll
  rw [List.filter_eq_nil_iff.2 fun op hop => by simp [h op hop]]
  rfl

theorem FlowFile.Amended.trans {ops ops' : List Operation} {v w x : FlowFile}
    (h : v.Amended ops w) (h' : w.Amended ops' x) : v.Amended (ops ++ ops') x := by
  refine ⟨h'.number.trans h.number, h'.entryDate.trans h.entryDate, ?_, fun hops => ?_,
    fun hops => ?_⟩
  · rw [h'.parts, h.number, h.parts, Operation.amendAll_append]
  · rw [h'.content, h.content]
    · exact fun op hop => hops op (List.mem_append_left _ hop)
    · rw [h.number]
      exact fun op hop => hops op (List.mem_append_right _ hop)
  · rw [h'.attributes, h.attributes]
    · exact fun op hop => hops op (List.mem_append_left _ hop)
    · rw [h.number]
      exact fun op hop => hops op (List.mem_append_right _ hop)

namespace Operation

variable {op : Operation} {s : Scope} {f : FlowFile}

/-- A change of the attributes of an open flow file replaces them, if there is something to
change. -/
theorem run_reattributes (hop : op.reattributes = true) (hnames : op.names = [f]) {h : Holding}
    (hheld : s.session.held f = .ok h) :
    (op.run s = (.ok (.flowFile h.current), s) ∧
      op.reattribute h.current.attributes = h.current.attributes) ∨
    ∃ details, op.run s = run.give .flowFile
      (s.replaceAttributes h (op.reattribute h.current.attributes) details) := by
  cases op with
  | putAttribute g key value =>
    obtain rfl : g = f := List.singleton_inj.1 hnames
    refine .inr ⟨key, ?_⟩
    simp only [run, Scope.putAttribute, Scope.withHeld, hheld]
    rfl
  | putAttributes g attributes =>
    obtain rfl : g = f := List.singleton_inj.1 hnames
    simp only [run, Scope.putAttributes, Scope.withHeld, hheld]
    by_cases hempty : attributes.isEmpty = true
    · rw [if_pos hempty]
      exact .inl ⟨rfl, Table.merge_of_isEmpty hempty⟩
    · rw [if_neg hempty]
      exact .inr ⟨[], rfl⟩
  | removeAttribute g key =>
    obtain rfl : g = f := List.singleton_inj.1 hnames
    simp only [run, Scope.removeAttribute, Scope.withHeld, hheld]
    by_cases hkey : h.current.attributes.contains key = true
    · rw [if_pos hkey]
      exact .inr ⟨key, rfl⟩
    · rw [if_neg hkey]
      exact .inl ⟨rfl, Table.erase_of_not_contains hkey⟩
  | _ => cases hop

/-- A change of the content of an open flow file replaces it, or there is no new content. -/
theorem run_recontents (hop : op.edits = true) (hnot : op.reattributes = false)
    (hnames : op.names = [f]) {h : Holding} (hheld : s.session.held f = .ok h) :
    (∃ e, op.run s = (.error e, s) ∧
      op.recontent h.current.content.bytes = h.current.content.bytes) ∨
    op.run s = run.give .flowFile
      (s.replaceContent h (op.recontent h.current.content.bytes)) := by
  cases op with
  | importBytes bytes g =>
    obtain rfl : g = f := List.singleton_inj.1 hnames
    rw [run, Scope.importBytes_of_held hheld]
    exact .inr rfl
  | importStream stream g =>
    obtain rfl : g = f := List.singleton_inj.1 hnames
    simp only [run, Scope.importStream, Scope.withHeld, hheld]
    cases stream with
    | broken => exact .inl ⟨_, rfl, rfl⟩
    | readable bytes =>
      dsimp only
      rw [Scope.importBytes_of_held hheld]
      exact .inr rfl
  | write writer g =>
    obtain rfl : g = f := List.singleton_inj.1 hnames
    cases writer with
    | none => exact .inl ⟨_, rfl, rfl⟩
    | some writer =>
      simp only [run, Scope.write, Scope.withHeld, hheld, recontent]
      cases writer h.current.content.bytes with
      | error e => exact .inl ⟨e, rfl, rfl⟩
      | ok bytes => exact .inr rfl
  | putAttribute | putAttributes | removeAttribute => cases hnot
  | _ => cases hop

/-- The operation was applied to the held flow file `f`, of which `g` is the version afterwards. -/
structure Applied (op : Operation) (s : Scope) (f g : FlowFile) (h : Holding) : Prop where
  holdings : ∀ id, (op.run s).2.session.holdings.get? id =
    if id = f.id then some { h with current := g } else s.session.holdings.get? id
  amended : h.current.Amended [op] g

theorem changes_of_names (hop : op.edits = true) (hnames : op.names = [f]) (id : UInt64) :
    op.changes id = decide (f.id = id) := by
  unfold changes
  rw [hop, hnames]
  simp

/-- A change of the flow file with the number names that flow file and no other. -/
theorem names_of_changes {id : UInt64} (h : op.changes id = true) :
    op.edits = true ∧ ∃ f, op.names = [f] ∧ f.id = id := by
  obtain ⟨hedits, hany⟩ := Bool.and_eq_true_iff.1 h
  refine ⟨hedits, ?_⟩
  cases op with
  | importBytes | importStream | write | putAttribute | putAttributes | removeAttribute =>
    exact ⟨_, rfl, by simpa [names] using hany⟩
  | _ => cases hedits

/-- One change of a flow file makes the new version of it. -/
theorem amended_of_amend {v g : FlowFile} (hchanges : op.changes v.id = true)
    (hnumber : g.id = v.id) (hdate : g.entryDate = v.entryDate)
    (hparts : (g.attributes, g.content.bytes) = op.amend (v.attributes, v.content.bytes))
    (hcontent : op.reattributes = true → g.content = v.content) : v.Amended [op] g := by
  refine ⟨hnumber, hdate, ?_, fun hall => ?_, fun hall => ?_⟩
  · rw [hparts]
    unfold amendAll
    rw [List.filter_singleton, hchanges]
    rfl
  · exact hcontent (hall op List.mem_cons_self hchanges)
  · have hsame := reattribute_of_not_reattributes (hall op List.mem_cons_self hchanges)
      v.attributes
    exact (congrArg Prod.fst hparts).trans hsame

/-- **A change of an open flow file is applied to the version that the session holds.** -/
theorem run_applied (hop : op.edits = true) (hnames : op.names = [f]) (hs : s.session.Keyed)
    {h : Holding} (hheld : s.session.held f = .ok h) : ∃ g, op.Applied s f g h := by
  obtain ⟨hg, -⟩ := Session.held_eq_ok.1 hheld
  have hid : h.current.id = f.id := hs.current _ h hg
  have hchanges : op.changes h.current.id = true := by
    rw [changes_of_names hop hnames, hid, decide_eq_true rfl]
  have hsame : ∀ id, s.session.holdings.get? id =
      if id = f.id then some { h with current := h.current } else s.session.holdings.get? id := by
    intro id
    split
    · rename_i heq
      rw [heq, hg]
    · rfl
  have hrevised {g : FlowFile} (hnumber : g.id = h.current.id) (id : UInt64) :
      (s.session.revise h g).holdings.get? id =
        if id = f.id then some { h with current := g } else s.session.holdings.get? id := by
    rw [Session.get?_revise, hnumber, hid]
  cases hattributes : op.reattributes with
  | true =>
    have hbytes (bytes : List UInt8) : op.recontent bytes = bytes := by
      cases op <;> first | rfl | cases hattributes
    obtain ⟨hrun, hnothing⟩ | ⟨details, hrun⟩ := run_reattributes hattributes hnames hheld
    · refine ⟨h.current, by rwa [hrun], amended_of_amend hchanges rfl rfl ?_ fun _ => rfl⟩
      rw [amend, hnothing, hbytes]
    · refine ⟨(s.replaceAttributes h (op.reattribute h.current.attributes) details).1,
        by rw [hrun]; exact hrevised rfl, amended_of_amend hchanges rfl rfl ?_ fun _ => rfl⟩
      rw [amend, hbytes]
      rfl
  | false =>
    have hkeeps := reattribute_of_not_reattributes hattributes h.current.attributes
    obtain ⟨e, hrun, hnothing⟩ | hrun := run_recontents hop hattributes hnames hheld
    · refine ⟨h.current, by rwa [hrun], amended_of_amend hchanges rfl rfl ?_ fun _ => rfl⟩
      rw [amend, hkeeps, hnothing]
    · refine ⟨(s.replaceContent h (op.recontent h.current.content.bytes)).1,
        by rw [hrun]; exact hrevised rfl,
        amended_of_amend hchanges rfl rfl ?_ (by rw [hattributes]; nofun)⟩
      rw [amend, hkeeps]
      rfl

end Operation

/-! ## The latest version -/

/-- `v` is the latest version of the open flow file with the number. -/
def Session.Latest (s : Session) (id : UInt64) (v : FlowFile) : Prop :=
  s.register.Open id ∧ s.register.current.get? id = some v

namespace Session

variable {s : Session} {id : UInt64} {v : FlowFile}

theorem latest_iff :
    s.Latest id v ↔ ∃ h, s.holdings.get? id = some h ∧ h.fate ≠ .drop ∧ h.current = v := by
  unfold Latest
  rw [open_iff, register, Table.get?_filterMap]
  cases s.holdings.get? id <;> simp

theorem Latest.id_eq (hs : s.Keyed) (h : s.Latest id v) : v.id = id := by
  obtain ⟨g, hg, -, rfl⟩ := latest_iff.1 h
  exact hs.current id g hg

/-- A flow file that is held already keeps its version when one with its number is taken. -/
theorem current_foldl_holdPolled {h : Holding} (fs : List FlowFile)
    (hg : s.holdings.get? id = some h) : ∃ polled,
      (fs.foldl holdPolled s).holdings.get? id = some { h with polled } := by
  induction fs generalizing s h with
  | nil => exact ⟨h.polled, hg⟩
  | cons f rest ih =>
    by_cases hid : id = f.id
    · subst hid
      refine ih (h := { h with polled := some (h.polled.getD f) }) ?_
      rw [get?_holdPolled, if_pos rfl, hg]
      rfl
    · refine ih (h := h) ?_
      rw [get?_holdPolled, if_neg hid]
      exact hg

/-- A call decides to give up a flow file only if that is what it is for. -/
theorem drop_of_decisions {op : Operation} {r : Except Error Answer} {d : UInt64 × Fate}
    (hd : d ∈ Call.decisions (op, r)) (hdrop : d.2 = .drop) : ∃ f, op = .drop f ∧ f.id = d.1 := by
  unfold Call.decisions at hd
  split at hd
  · rw [List.mem_singleton.1 hd] at hdrop
    cases hdrop
  · obtain ⟨f, -, rfl⟩ := List.mem_map.1 hd
    cases hdrop
  · obtain ⟨f, -, rfl⟩ := List.mem_map.1 hd
    cases hdrop
  · rw [List.mem_singleton.1 hd] at hdrop
    cases hdrop
  · rename_i f _ heq
    rw [List.mem_singleton.1 hd]
    exact ⟨f, congrArg Prod.fst heq, rfl⟩
  · cases hd

end Session

namespace Session

variable {s : Scope} {op : Operation} {id : UInt64} {v : FlowFile}

/-- A call that neither takes nor makes flow files answers only versions of those it changes. -/
theorem not_answered (hs : s.session.Keyed) (hop : op.settles = false) (hrests : op.Rests s)
    (hchanges : op.changes id = false) :
    id ∉ (Call.answered (op, (op.run s).1)).map (·.id) := by
  cases hedits : op.edits with
  | false =>
    rw [Operation.answered_of_not_edits hop hrests.polls hrests.fails hedits]
    exact List.not_mem_nil
  | true =>
    obtain ⟨e, hrun⟩ | ⟨f, g, h, t, hrun, hedited⟩ := Operation.run_edits hedits hs
    · rw [hrun]
      exact List.not_mem_nil
    · rw [Operation.changes_of_names hedits hedited.named, decide_eq_false_iff_not] at hchanges
      have hcurrent := hs.current _ h (held_eq_ok.1 hedited.held).1
      rw [hrun]
      intro hm
      have hnumber := hcurrent.symm.trans hedited.number.symm
      exact hchanges (hnumber.trans (List.mem_singleton.1 hm).symm)

/-- An operation that is no change of a flow file and does not give it up keeps its version. -/
theorem Latest.keep (hs : s.session.Keyed) (h : s.session.Latest id v)
    (hop : op.settles = false) (hdrop : ∀ f, op = .drop f → f.id ≠ id)
    (hchanges : op.changes id = false) : (op.run s).2.session.Latest id v := by
  obtain ⟨g, hg, hkept, hcurrent⟩ := latest_iff.1 h
  rw [latest_iff]
  obtain ⟨fs, htakes⟩ | ⟨f, kind, details, hmakes⟩ | hrests := op.course s
  · obtain ⟨polled, hafter⟩ := current_foldl_holdPolled fs hg
    rw [htakes.session]
    exact ⟨_, hafter, hkept, hcurrent⟩
  · have hafter : (op.run s).2.session.holdings.get? id = some g := by
      rw [hmakes.session]
      refine (get?_hold s.session f id).trans ?_
      by_cases hid : id = f.id
      · subst hid
        rw [if_pos rfl, hg]
        rfl
      · rw [if_neg hid, hg]
    exact ⟨g, hafter, hkept, hcurrent⟩
  · have hdevelops := Operation.run_develops hop hrests.polls hrests.fails hs
    have hafter := hdevelops.holdings id
    rw [hg, Option.map_some] at hafter
    refine ⟨_, hafter, ?_, ?_⟩
    · unfold Holding.develop
      cases hlast : lastWith Prod.fst (Call.decisions (op, (op.run s).1)) id with
      | none => exact hkept
      | some d =>
        obtain ⟨hd, hid⟩ := mem_of_lastWith hlast
        intro hgiven
        obtain ⟨f, hdrops, hf⟩ := drop_of_decisions hd hgiven
        exact hdrop f hdrops (hf.trans hid)
    · unfold Holding.develop
      rw [lastWith_eq_none (not_answered hs hop hrests hchanges)]
      exact hcurrent

/-- **One more call makes of a flow file what it is to make of it.** -/
theorem Latest.step (hs : s.session.Keyed) (h : s.session.Latest id v)
    (hop : op.settles = false) (hdrop : ∀ f, op = .drop f → f.id ≠ id) :
    ∃ w, (op.run s).2.session.Latest id w ∧ v.Amended [op] w := by
  have hid := h.id_eq hs
  cases hchanges : op.changes id with
  | false =>
    refine ⟨v, h.keep hs hop hdrop hchanges, .of_unchanged fun op' hop' => ?_⟩
    rw [List.mem_singleton.1 hop', hid, hchanges]
  | true =>
    obtain ⟨hedits, f, hnames, rfl⟩ := Operation.names_of_changes hchanges
    obtain ⟨g, hg, hkept, rfl⟩ := latest_iff.1 h
    obtain ⟨w, happlied⟩ := Operation.run_applied hedits hnames hs (held_eq_ok.2 ⟨hg, hkept⟩)
    refine ⟨w, latest_iff.2 ⟨{ g with current := w }, ?_, hkept, rfl⟩, happlied.amended⟩
    rw [happlied.holdings, if_pos rfl]

end Session

/-- The session after further operations, each at a pool of its own. -/
def Session.proceed (s : Session) (steps : List (Pool × Operation)) : Session :=
  steps.foldl (fun s e => (e.2.run ⟨s, e.1⟩).2.session) s

namespace Session

variable {s : Session} {id : UInt64} {v : FlowFile}

theorem proceed_append_singleton (s : Session) (steps : List (Pool × Operation))
    (e : Pool × Operation) :
    s.proceed (steps ++ [e]) = (e.2.run ⟨s.proceed steps, e.1⟩).2.session := by
  unfold proceed
  rw [List.foldl_append]
  rfl

theorem Keyed.proceed (hs : s.Keyed) (steps : List (Pool × Operation)) :
    (s.proceed steps).Keyed := by
  induction steps generalizing s with
  | nil => exact hs
  | cons e rest ih => exact ih (e.2.run_keyed (s := ⟨s, e.1⟩) hs)

/-- **No change is lost.**  As long as a flow file is open it is what the changes to it make of it,
one after the other, whatever else is done. -/
theorem Latest.proceed (hs : s.Keyed) (h : s.Latest id v) (later : List (Pool × Operation))
    (hlater : ∀ e ∈ later, e.2.settles = false ∧ ∀ f, e.2 = .drop f → f.id ≠ id) :
    ∃ w, (s.proceed later).Latest id w ∧ v.Amended (later.map Prod.snd) w := by
  induction later using List.reverseRecOn with
  | nil => exact ⟨v, h, .of_unchanged (by simp)⟩
  | append_singleton later e ih =>
    obtain ⟨w, hw, hamended⟩ := ih fun e he => hlater e (List.mem_append_left _ he)
    obtain ⟨hop, hdrop⟩ := hlater e (List.mem_append_right _ (List.mem_singleton_self e))
    obtain ⟨x, hx, hstep⟩ := hw.step (s := ⟨s.proceed later, e.1⟩) (hs.proceed later) hop hdrop
    refine ⟨x, ?_, ?_⟩
    · rw [proceed_append_singleton]
      exact hx
    · rw [List.map_append]
      exact hamended.trans hstep

end Session

/-- A change of one flow file leaves the others as they are, and answers its latest version. -/
theorem Operation.run_edits_one {op : Operation} {s : Scope} {f : FlowFile}
    (hop : op.edits = true) (hnames : op.names = [f]) (hs : s.session.Keyed) :
    (∀ id, id ≠ f.id → (op.run s).2.session.holdings.get? id = s.session.holdings.get? id) ∧
      ∀ g, (op.run s).1 = .ok (.flowFile g) → (op.run s).2.session.Latest f.id g := by
  obtain ⟨e, hrun⟩ | ⟨f', g, h, t, hrun, hedited⟩ := run_edits hop hs
  · rw [hrun]
    exact ⟨fun _ _ => rfl, nofun⟩
  · obtain rfl : f' = f := List.singleton_inj.1 (hedited.named.symm.trans hnames)
    have hheld := Session.held_eq_ok.1 hedited.held
    have hid : h.current.id = f'.id := hs.current _ h hheld.1
    rw [hrun]
    refine ⟨fun id hne => ?_, fun g' hg' => ?_⟩
    · rw [hedited.holdings, hid, if_neg hne]
    · cases hg'
      refine Session.latest_iff.2 ⟨{ h with current := g }, ?_, hheld.2, rfl⟩
      rw [hedited.holdings, hid, if_pos rfl]

/-! ## Attributes one by one -/

/-- The open flow file `f` has the attributes `a`, and the rest is as before. -/
structure Scope.Reattributed (s t : Scope) (f : FlowFile) (h : Holding) (a : Attributes) :
    Prop where
  pool : t.pool = s.pool
  holdings : ∀ id, t.session.holdings.get? id =
    if id = f.id then some { h with current := h.current.withAttributes a }
    else s.session.holdings.get? id

namespace Scope

variable {s t : Scope} {f : FlowFile} {h : Holding}

theorem reattributed_same (hg : s.session.holdings.get? f.id = some h) :
    s.Reattributed s f h h.current.attributes := by
  refine ⟨rfl, fun id => ?_⟩
  split
  · rename_i heq
    rw [heq, hg]
    rfl
  · rfl

theorem Reattributed.held {a : Attributes} (h' : s.Reattributed t f h a) (hkept : h.fate ≠ .drop) :
    t.session.held f = .ok { h with current := h.current.withAttributes a } := by
  refine Session.held_eq_ok.2 ⟨?_, hkept⟩
  rw [h'.holdings, if_pos rfl]

theorem Reattributed.trans {u : Scope} {a b : Attributes} (h' : s.Reattributed t f h a)
    (h'' : t.Reattributed u f { h with current := h.current.withAttributes a } b) :
    s.Reattributed u f h b := by
  refine ⟨h''.pool.trans h'.pool, fun id => ?_⟩
  rw [h''.holdings, h'.holdings]
  split <;> rfl

theorem reattributed_run (op : Operation) (hop : op.reattributes = true)
    (hnames : op.names = [f]) (hs : s.session.Keyed) (hheld : s.session.held f = .ok h) :
    s.Reattributed (op.run s).2 f h (op.reattribute h.current.attributes) := by
  have hg := (Session.held_eq_ok.1 hheld).1
  have hid : h.current.id = f.id := hs.current _ h hg
  obtain ⟨hrun, hnothing⟩ | ⟨details, hrun⟩ := Operation.run_reattributes hop hnames hheld
  · rw [hrun, hnothing]
    exact reattributed_same hg
  · rw [hrun]
    refine ⟨rfl, fun id => ?_⟩
    rw [← hid]
    exact Session.get?_revise s.session h _ id

theorem reattributed_foldl (hs : s.session.Keyed) (hheld : s.session.held f = .ok h)
    (l : List (Text × Text)) :
    s.Reattributed (l.foldl (fun t e => ((Operation.putAttribute f e.1 e.2).run t).2) s) f h
      (l.foldl (fun a e => a.insert e.1 e.2) h.current.attributes) := by
  induction l generalizing s h with
  | nil => exact reattributed_same (Session.held_eq_ok.1 hheld).1
  | cons e rest ih =>
    have hfirst : s.Reattributed ((Operation.putAttribute f e.1 e.2).run s).2 f h
        (h.current.attributes.insert e.1 e.2) :=
      reattributed_run (.putAttribute f e.1 e.2) rfl rfl hs hheld
    exact hfirst.trans (ih (Operation.run_keyed _ hs) (hfirst.held (Session.held_eq_ok.1 hheld).2))

/-- **Putting all attributes of a table is putting them one by one, in any order.** -/
theorem putAttributes_eq_foldl (hs : s.session.Keyed) (f : FlowFile) {attributes : Attributes}
    {l : List (Text × Text)} (hl : l.Perm attributes.entries) :
    (l.foldl (fun t e => ((Operation.putAttribute f e.1 e.2).run t).2) s).session.holdings =
        ((Operation.putAttributes f attributes).run s).2.session.holdings ∧
      (l.foldl (fun t e => ((Operation.putAttribute f e.1 e.2).run t).2) s).pool =
        ((Operation.putAttributes f attributes).run s).2.pool := by
  cases hheld : s.session.held f with
  | error e =>
    have hfold : l.foldl (fun t e => ((Operation.putAttribute f e.1 e.2).run t).2) s = s := by
      clear hl
      induction l with
      | nil => rfl
      | cons d rest ih => rw [List.foldl_cons, Operation.run_of_held_error rfl (by simp) hheld, ih]
    rw [hfold, Operation.run_of_held_error rfl (by simp) hheld]
    exact ⟨rfl, rfl⟩
  | ok h =>
    have heach := reattributed_foldl hs hheld l
    have honce : s.Reattributed ((Operation.putAttributes f attributes).run s).2 f h
        (h.current.attributes.merge attributes) :=
      reattributed_run (.putAttributes f attributes) rfl rfl hs hheld
    rw [Table.foldl_insert_of_perm _ _ hl] at heach
    refine ⟨Table.ext_get? fun id => ?_, heach.pool.trans honce.pool.symm⟩
    rw [heach.holdings, honce.holdings]

end Scope

/-! ## What others see -/

/-- The flow file came to the end of a list together with others, none of which has its number. -/
def FlowFile.AddedOnce (v : FlowFile) (old new : List FlowFile) : Prop :=
  ∃ before after, new = old ++ (before ++ v :: after) ∧ ∀ f ∈ before ++ after, f.id ≠ v.id

theorem FlowFile.addedOnce_of_mem {v : FlowFile} {added : List FlowFile} (old : List FlowFile)
    (hadded : (added.map (·.id)).Nodup) (hv : v ∈ added) : v.AddedOnce old (old ++ added) := by
  obtain ⟨before, after, rfl⟩ := List.append_of_mem hv
  refine ⟨before, after, rfl, fun f hf hid => ?_⟩
  have hnodup := (List.perm_middle.map FlowFile.id).nodup_iff.1 hadded
  rw [List.map_cons, List.nodup_cons] at hnodup
  exact hnodup.1 (hid ▸ List.mem_map_of_mem hf)

/-- `v` is what is seen of the flow file with the number. -/
structure Session.Shows (s : Session) (id : UInt64) (v : FlowFile) : Prop where
  /-- Whoever reads it gets this content, through whatever version. -/
  read : ∀ (pool : Pool) (f : FlowFile), f.id = id →
    (Operation.read f).run ⟨s, pool⟩ = (.ok (.content v.content.bytes), ⟨s, pool⟩)
  /-- A commit publishes this version where it was decided. -/
  published : ∀ (pool : Pool) (t : Scope), Operation.commit.run ⟨s, pool⟩ = (.ok .done, t) →
    (∃ relationship, s.register.transfers.get? id = some relationship ∧
      v.AddedOnce (s.routedTo relationship) (t.session.routedTo relationship)) ∨
    (id ∈ s.register.returns.keys ∧
      v.AddedOnce pool.queue.flowFiles t.pool.queue.flowFiles)

/-- The latest version is what is seen. -/
theorem Session.Latest.shows {s : Session} {id : UInt64} {v : FlowFile} (hs : s.Keyed)
    (h : s.Latest id v) : s.Shows id v := by
  obtain ⟨g, hg, hkept, rfl⟩ := latest_iff.1 h
  constructor
  · rintro pool f rfl
    have hheld : s.held f = .ok g := held_eq_ok.2 ⟨hg, hkept⟩
    simp only [Operation.run, Operation.run.answer, Scope.read, Scope.withHeld, hheld]
    rfl
  · intro pool t hcommit
    obtain ⟨hdecided, hrun⟩ | ⟨e, hrun⟩ := Operation.run_commit ⟨s, pool⟩
    · obtain rfl : Scope.publish ⟨s, pool⟩ = t := congrArg Prod.snd (hrun.symm.trans hcommit)
      cases hfate : g.fate with
      | undecided => exact absurd hfate (decided_of_undecided? hdecided hg)
      | drop => exact absurd hfate hkept
      | route relationship =>
        have hmem : (relationship, g.current) ∈ s.leaving :=
          mem_leaving.2 ⟨id, g, hg, hfate, rfl⟩
        refine .inl ⟨relationship, by simp [register, hg, hfate, Fate.relationship?], ?_⟩
        rw [Scope.routedTo_publish]
        refine FlowFile.addedOnce_of_mem _ ?_ (List.mem_map.2 ⟨_, List.mem_filter.2
          ⟨hmem, decide_eq_true rfl⟩, rfl⟩)
        rw [List.map_map]
        exact (leaving_ids hs relationship) ▸ Scope.numbers_nodup s _
      | giveBack =>
        have hmem : g.current ∈ s.returning := mem_returning.2 ⟨id, g, hg, hfate, rfl⟩
        refine .inr ⟨?_, FlowFile.addedOnce_of_mem _ ?_ hmem⟩
        · rw [Table.mem_keys]
          simp [register, hg, hfate]
        · rw [returning_ids hs]
          exact Scope.numbers_nodup s _
    · cases hrun.symm.trans hcommit

/-- **No change is lost through old versions.**  After any operations of a session, at pools with
any flow files:

* operations that name the same numbers, by whatever versions, have the same answer and leave the
  same session and pool;
* a change of one flow file leaves the others as they are, and answers the latest version;
* as long as a flow file is neither given up nor committed, it is what the changes to it make of the
  version that there was, one after the other in the order of the calls, whatever versions they
  named and whatever else was done; and this is what is read and what a commit publishes;
* putting all attributes of a table does to the flow files what putting them one by one does, in any
  order. -/
theorem Session.no_lost_update (steps : List (Pool × Operation)) :
    let s := (follow steps).1
    (∀ (pool : Pool) (op op' : Operation), op.bare = op'.bare →
      op.run ⟨s, pool⟩ = op'.run ⟨s, pool⟩) ∧
    (∀ (pool : Pool) (op : Operation) (f : FlowFile), op.edits = true → op.names = [f] →
      (∀ id, id ≠ f.id →
        (op.run ⟨s, pool⟩).2.session.holdings.get? id = s.holdings.get? id) ∧
      ∀ g, (op.run ⟨s, pool⟩).1 = .ok (.flowFile g) →
        (op.run ⟨s, pool⟩).2.session.Latest f.id g) ∧
    (∀ (id : UInt64) (v : FlowFile), s.Latest id v → ∀ later : List (Pool × Operation),
      (∀ e ∈ later, e.2.settles = false ∧ ∀ f, e.2 = .drop f → f.id ≠ id) →
      ∃ w, (s.proceed later).Latest id w ∧ v.Amended (later.map Prod.snd) w ∧
        (s.proceed later).Shows id w) ∧
    ∀ (pool : Pool) (f : FlowFile) (attributes : Attributes) (l : List (Text × Text)),
      l.Perm attributes.entries →
      let each : Scope :=
        l.foldl (fun t e => ((Operation.putAttribute f e.1 e.2).run t).2) ⟨s, pool⟩
      let once : Scope := ((Operation.putAttributes f attributes).run ⟨s, pool⟩).2
      each.session.holdings = once.session.holdings ∧ each.pool = once.pool := by
  intro s
  have hkeyed : s.Keyed := (reflects.follow steps).keyed
  refine ⟨fun pool op op' h => Operation.run_congr h _,
    fun pool op f hop hnames => Operation.run_edits_one hop hnames hkeyed,
    fun id v h later hlater => ?_, fun pool f attributes l hl => ?_⟩
  · obtain ⟨w, hw, hamended⟩ := h.proceed hkeyed later hlater
    exact ⟨w, hw, hamended, hw.shows (hkeyed.proceed later)⟩
  · exact Scope.putAttributes_eq_foldl (s := ⟨s, pool⟩) hkeyed f hl

end ProcessorBench
