import ProcessorBench.Proofs.Session.Pending

/-!
# The register of a session

A session keeps all that it knows of a flow file in one holding.  The same can be kept in five
tables by number: the latest versions, the versions that were polled, and three tables of what
waits for the commit, namely routings, returns and removals.  That these tables fit together is
then no matter of course, since a flow file moves from one of them to another.

* `Register.Moves` — what can be done to the tables, one act at a time.
* `Register.Valid` — what makes them fit together, and `Register.Valid.moves`: every act keeps it.
* `Session.register` — the tables of a session; `Operation.moves`: each operation does acts on them.
-/

set_option autoImplicit false

namespace ProcessorBench

/-- The flow files of a session, table by table. -/
@[ext] structure Register where
  /-- The latest version of each flow file. -/
  current : Table UInt64 FlowFile := ∅
  /-- The version in which a flow file was taken from the queue. -/
  original : Table UInt64 FlowFile := ∅
  /-- The relationships through which flow files are to leave. -/
  transfers : Table UInt64 Text := ∅
  /-- The flow files that are to go back to the queue. -/
  returns : Table UInt64 Unit := ∅
  /-- The flow files that are given up. -/
  removals : Table UInt64 Unit := ∅

open Relation (ReflTransGen)

namespace Register

/-- Enters a flow file that was made, unless there is one under its number. -/
def enter (reg : Register) (f : FlowFile) : Register :=
  { reg with current := reg.current.insertIfNew f.id f }

/-- Enters a flow file from the queue, in each table unless there is one under its number. -/
def enterPolled (reg : Register) (f : FlowFile) : Register :=
  { reg with
    current := reg.current.insertIfNew f.id f
    original := reg.original.insertIfNew f.id f }

def revise (reg : Register) (f : FlowFile) : Register :=
  { reg with current := reg.current.insert f.id f }

def route (reg : Register) (id : UInt64) (relationship : Text) : Register :=
  { reg with
    transfers := reg.transfers.insert id relationship
    returns := reg.returns.erase id }

def giveBack (reg : Register) (id : UInt64) : Register :=
  { reg with
    transfers := reg.transfers.erase id
    returns := reg.returns.insert id () }

def drop (reg : Register) (id : UInt64) : Register :=
  { reg with
    transfers := reg.transfers.erase id
    returns := reg.returns.erase id
    removals := reg.removals.insert id () }

/-- The flow file is open: it is there and not given up. -/
def Open (reg : Register) (id : UInt64) : Prop :=
  id ∈ reg.current.keys ∧ id ∉ reg.removals.keys

/-- One act on the tables, where flow files can be routed to the given relationships. -/
inductive Moves (relationships : List Text) (reg : Register) : Register → Prop where
  | enter (f : FlowFile) : Moves relationships reg (reg.enter f)
  | enterPolled (f : FlowFile) : Moves relationships reg (reg.enterPolled f)
  | revise {f : FlowFile} (isOpen : reg.Open f.id) : Moves relationships reg (reg.revise f)
  | route {id : UInt64} {relationship : Text} (isOpen : reg.Open id)
      (declared : relationship ∈ relationships) :
      Moves relationships reg (reg.route id relationship)
  | giveBack {id : UInt64} (isOpen : reg.Open id) (polled : id ∈ reg.original.keys) :
      Moves relationships reg (reg.giveBack id)
  | drop {id : UInt64} (isOpen : reg.Open id) : Moves relationships reg (reg.drop id)
  | clear : Moves relationships reg {}

/-- Each flow file stands under its own number. -/
def Numbered (t : Table UInt64 FlowFile) : Prop := ∀ id f, t.get? id = some f → f.id = id

/-- The tables fit together. -/
structure Valid (relationships : List Text) (reg : Register) : Prop where
  transfers_returns : ∀ id ∈ reg.transfers.keys, id ∉ reg.returns.keys
  transfers_removals : ∀ id ∈ reg.transfers.keys, id ∉ reg.removals.keys
  returns_removals : ∀ id ∈ reg.returns.keys, id ∉ reg.removals.keys
  transfers_current : reg.transfers.keys ⊆ reg.current.keys
  returns_current : reg.returns.keys ⊆ reg.current.keys
  removals_current : reg.removals.keys ⊆ reg.current.keys
  returns_original : reg.returns.keys ⊆ reg.original.keys
  original_current : reg.original.keys ⊆ reg.current.keys
  current_numbered : Numbered reg.current
  original_numbered : Numbered reg.original
  /-- Flow files leave through relationships that there are. -/
  declared : ∀ id relationship, reg.transfers.get? id = some relationship →
    relationship ∈ relationships

variable {relationships : List Text} {reg reg' : Register}

theorem Numbered.insert {t : Table UInt64 FlowFile} (h : Numbered t) (f : FlowFile) :
    Numbered (t.insert f.id f) := by
  intro id g hg
  rw [Table.get?_insert] at hg
  split at hg
  · rename_i hid
    cases hg
    exact hid.symm
  · exact h id g hg

theorem Numbered.insertIfNew {t : Table UInt64 FlowFile} (h : Numbered t) (f : FlowFile) :
    Numbered (t.insertIfNew f.id f) := by
  unfold Table.insertIfNew
  split
  · exact h
  · exact h.insert f

theorem Valid.empty : Valid relationships {} := by
  constructor <;> nofun

/-- Flow files that come in, or that have a new version, leave what waits as it is. -/
theorem Valid.of_current (h : reg.Valid relationships) {current original : Table UInt64 FlowFile}
    (hcurrent : reg.current.keys ⊆ current.keys) (horiginal : reg.original.keys ⊆ original.keys)
    (hboth : original.keys ⊆ current.keys) (hcurrentNumbered : Numbered current)
    (horiginalNumbered : Numbered original) :
    { reg with current, original }.Valid relationships :=
  { h with
    transfers_current := List.Subset.trans h.transfers_current hcurrent
    returns_current := List.Subset.trans h.returns_current hcurrent
    removals_current := List.Subset.trans h.removals_current hcurrent
    returns_original := List.Subset.trans h.returns_original horiginal
    original_current := hboth
    current_numbered := hcurrentNumbered
    original_numbered := horiginalNumbered }

theorem Valid.enter (h : reg.Valid relationships) (f : FlowFile) :
    (reg.enter f).Valid relationships := by
  have hcurrent : reg.current.keys ⊆ (reg.current.insertIfNew f.id f).keys := by grind
  exact h.of_current hcurrent (List.Subset.refl _) (List.Subset.trans h.original_current hcurrent)
    (h.current_numbered.insertIfNew f) h.original_numbered

theorem Valid.enterPolled (h : reg.Valid relationships) (f : FlowFile) :
    (reg.enterPolled f).Valid relationships := by
  have hcurrent : reg.current.keys ⊆ (reg.current.insertIfNew f.id f).keys := by grind
  have horiginal : reg.original.keys ⊆ (reg.original.insertIfNew f.id f).keys := by grind
  have hboth : (reg.original.insertIfNew f.id f).keys ⊆ (reg.current.insertIfNew f.id f).keys := by
    have hold := h.original_current
    grind
  exact h.of_current hcurrent horiginal hboth (h.current_numbered.insertIfNew f)
    (h.original_numbered.insertIfNew f)

theorem Valid.revise (h : reg.Valid relationships) (f : FlowFile) :
    (reg.revise f).Valid relationships := by
  have hcurrent : reg.current.keys ⊆ (reg.current.insert f.id f).keys := by grind
  exact h.of_current hcurrent (List.Subset.refl _) (List.Subset.trans h.original_current hcurrent)
    (h.current_numbered.insert f) h.original_numbered

theorem Valid.transferred (h : reg.Valid relationships) : ∀ id ∈ reg.transfers.keys,
    id ∈ reg.current.keys ∧ id ∉ reg.returns.keys ∧ id ∉ reg.removals.keys := fun id hid =>
  ⟨h.transfers_current hid, h.transfers_returns id hid, h.transfers_removals id hid⟩

theorem Valid.returned (h : reg.Valid relationships) :
    ∀ id ∈ reg.returns.keys, id ∈ reg.original.keys ∧ id ∉ reg.removals.keys := fun id hid =>
  ⟨h.returns_original hid, h.returns_removals id hid⟩

/-- What waits may change, as long as it concerns flow files that there are, each in one way. -/
theorem Valid.of_waiting (h : reg.Valid relationships) {transfers : Table UInt64 Text}
    {returns removals : Table UInt64 Unit}
    (htransfers : ∀ id ∈ transfers.keys,
      id ∈ reg.current.keys ∧ id ∉ returns.keys ∧ id ∉ removals.keys)
    (hreturns : ∀ id ∈ returns.keys, id ∈ reg.original.keys ∧ id ∉ removals.keys)
    (hremovals : removals.keys ⊆ reg.current.keys)
    (hdeclared : ∀ id relationship, transfers.get? id = some relationship →
      relationship ∈ relationships) :
    { reg with transfers, returns, removals }.Valid relationships :=
  { h with
    transfers_returns := fun id hid => (htransfers id hid).2.1
    transfers_removals := fun id hid => (htransfers id hid).2.2
    returns_removals := fun id hid => (hreturns id hid).2
    transfers_current := fun id hid => (htransfers id hid).1
    returns_current := fun id hid => h.original_current (hreturns id hid).1
    removals_current := hremovals
    returns_original := fun id hid => (hreturns id hid).1
    declared := hdeclared }

theorem Valid.route (h : reg.Valid relationships) {id : UInt64} (hopen : reg.Open id)
    {relationship : Text} (hdeclared : relationship ∈ relationships) :
    (reg.route id relationship).Valid relationships := by
  obtain ⟨hcurrent, hkept⟩ := hopen
  refine h.of_waiting ?_ ?_ h.removals_current ?_
  · intro j hj
    have hold := h.transferred j
    grind
  · intro j hj
    have hold := h.returned j
    grind
  · intro j name hj
    have hold := h.declared j name
    grind

theorem Valid.giveBack (h : reg.Valid relationships) {id : UInt64} (hopen : reg.Open id)
    (hpolled : id ∈ reg.original.keys) : (reg.giveBack id).Valid relationships := by
  obtain ⟨-, hkept⟩ := hopen
  refine h.of_waiting ?_ ?_ h.removals_current ?_
  · intro j hj
    have hold := h.transferred j
    grind
  · intro j hj
    have hold := h.returned j
    grind
  · intro j name hj
    have hold := h.declared j name
    grind

theorem Valid.drop (h : reg.Valid relationships) {id : UInt64} (hopen : reg.Open id) :
    (reg.drop id).Valid relationships := by
  obtain ⟨hcurrent, -⟩ := hopen
  refine h.of_waiting ?_ ?_ ?_ ?_
  · intro j hj
    have hold := h.transferred j
    grind
  · intro j hj
    have hold := h.returned j
    grind
  · intro j hj
    have hold : j ∈ reg.removals.keys → j ∈ reg.current.keys := fun hm => h.removals_current hm
    grind
  · intro j name hj
    have hold := h.declared j name
    grind

/-- **Every act keeps the tables fitting together.** -/
theorem Valid.moves (h : reg.Valid relationships) (hm : reg.Moves relationships reg') :
    reg'.Valid relationships := by
  cases hm with
  | enter f => exact h.enter f
  | enterPolled f => exact h.enterPolled f
  | revise isOpen => exact h.revise _
  | route isOpen declared => exact h.route isOpen declared
  | giveBack isOpen polled => exact h.giveBack isOpen polled
  | drop isOpen => exact h.drop isOpen
  | clear => exact .empty

theorem Valid.of_moves (h : reg.Valid relationships)
    (hm : ReflTransGen (Moves relationships) reg reg') : reg'.Valid relationships := by
  induction hm with
  | refl => exact h
  | tail _ hm ih => exact ih.moves hm

/-- Registers in which the same is found under every number are the same. -/
theorem ext_get? (hcurrent : ∀ id, reg.current.get? id = reg'.current.get? id)
    (horiginal : ∀ id, reg.original.get? id = reg'.original.get? id)
    (htransfers : ∀ id, reg.transfers.get? id = reg'.transfers.get? id)
    (hreturns : ∀ id, reg.returns.get? id = reg'.returns.get? id)
    (hremovals : ∀ id, reg.removals.get? id = reg'.removals.get? id) : reg = reg' :=
  Register.ext (Table.ext_get? hcurrent) (Table.ext_get? horiginal) (Table.ext_get? htransfers)
    (Table.ext_get? hreturns) (Table.ext_get? hremovals)

end Register

/-! ## The register of a session -/

def Fate.relationship? : Fate → Option Text
  | .route relationship => some relationship
  | _ => none

/-- What the session holds, table by table. -/
def Session.register (s : Session) : Register where
  current := s.holdings.filterMap fun h => some h.current
  original := s.holdings.filterMap (·.polled)
  transfers := s.holdings.filterMap (·.fate.relationship?)
  returns := s.holdings.filterMap fun h => if h.fate = .giveBack then some () else none
  removals := s.holdings.filterMap fun h => if h.fate = .drop then some () else none

namespace Session

variable {s : Session}

theorem register_of_empty (h : s.holdings = ∅) : s.register = {} := by
  unfold register
  rw [h]
  rfl

theorem register_hold (s : Session) (f : FlowFile) : (s.hold f).register = s.register.enter f := by
  -- table by table: under other numbers nothing changes, under its own only if it is new
  refine Register.ext_get? ?_ ?_ ?_ ?_ ?_ <;> intro id <;>
    simp only [register, Register.enter, Table.get?_filterMap, get?_hold,
      Table.get?_insertIfNew] <;>
    by_cases hid : id = f.id <;> cases hg : s.holdings.get? f.id <;>
    simp_all [Fate.relationship?]

theorem register_holdPolled (s : Session) (f : FlowFile) :
    (s.holdPolled f).register = s.register.enterPolled f := by
  refine Register.ext_get? ?_ ?_ ?_ ?_ ?_ <;> intro id <;>
    simp only [register, Register.enterPolled, Table.get?_filterMap, get?_holdPolled,
      Table.get?_insertIfNew] <;>
    by_cases hid : id = f.id <;> cases hg : s.holdings.get? f.id <;>
    simp_all [polledHolding, Fate.relationship?]

variable {f : FlowFile} {h : Holding}

theorem register_revise (hg : s.holdings.get? h.current.id = some h) (hid : f.id = h.current.id) :
    (s.revise h f).register = s.register.revise f := by
  rw [← hid] at hg
  refine Register.ext_get? ?_ ?_ ?_ ?_ ?_ <;> intro id <;>
    simp only [register, Register.revise, Table.get?_filterMap, get?_revise,
      Table.get?_insert] <;>
    by_cases he : id = f.id <;> simp_all

theorem get?_assign (s : Session) (h : Holding) (fate : Fate) (k : UInt64) :
    (s.assign h fate).holdings.get? k =
      if k = h.current.id then some { h with fate } else s.holdings.get? k := by
  unfold assign
  rw [Table.get?_insert]

theorem register_route (hg : s.holdings.get? h.current.id = some h) (hkept : h.fate ≠ .drop)
    (relationship : Text) : (s.assign h (.route relationship)).register =
      s.register.route h.current.id relationship := by
  refine Register.ext_get? ?_ ?_ ?_ ?_ ?_ <;> intro id <;>
    simp only [register, Register.route, Table.get?_filterMap, get?_assign,
      Table.get?_insert, Table.get?_erase] <;>
    by_cases hid : id = h.current.id <;> simp_all [Fate.relationship?]

theorem register_giveBack (hg : s.holdings.get? h.current.id = some h) (hkept : h.fate ≠ .drop) :
    (s.assign h .giveBack).register = s.register.giveBack h.current.id := by
  refine Register.ext_get? ?_ ?_ ?_ ?_ ?_ <;> intro id <;>
    simp only [register, Register.giveBack, Table.get?_filterMap, get?_assign,
      Table.get?_insert, Table.get?_erase] <;>
    by_cases hid : id = h.current.id <;> simp_all [Fate.relationship?]

theorem register_drop (hg : s.holdings.get? h.current.id = some h) :
    (s.assign h .drop).register = s.register.drop h.current.id := by
  refine Register.ext_get? ?_ ?_ ?_ ?_ ?_ <;> intro id <;>
    simp only [register, Register.drop, Table.get?_filterMap, get?_assign,
      Table.get?_insert, Table.get?_erase] <;>
    by_cases hid : id = h.current.id <;> simp_all [Fate.relationship?]

/-- The latest version of a flow file that is held under its own number and not given up. -/
theorem Keyed.open_of_held (hs : s.Keyed) (hh : s.held f = .ok h) :
    s.holdings.get? h.current.id = some h ∧ h.fate ≠ .drop ∧ s.register.Open h.current.id := by
  obtain ⟨hg, hkept⟩ := held_eq_ok.1 hh
  rw [← hs.current _ _ hg] at hg
  refine ⟨hg, hkept, ?_, ?_⟩
  · rw [Table.mem_keys]
    simp [register, hg]
  · rw [Table.mem_keys]
    simp [register, hg, hkept]

theorem Keyed.moves_revise (hs : s.Keyed) (f' : FlowFile) (relationships : List Text)
    (hh : s.held f = .ok h) (hid : f'.id = h.current.id) :
    ReflTransGen (Register.Moves relationships) s.register (s.revise h f').register := by
  obtain ⟨hg, -, hopen⟩ := hs.open_of_held hh
  rw [register_revise hg hid]
  rw [← hid] at hopen
  exact .single (.revise hopen)

end Session

/-- An elementary change does one act, or none. -/
theorem Scope.Tends.moves {s s' : Scope} (hs : s.session.Keyed) (h : s.Tends s') :
    ReflTransGen (Register.Moves s.pool.relationships) s.session.register s'.session.register := by
  cases h with
  | @take f rest waits =>
    show ReflTransGen _ _ (s.session.holdPolled f).register
    rw [Session.register_holdPolled]
    exact .single (.enterPolled f)
  | @content f h bytes held =>
    exact hs.moves_revise (s.replaceContent h bytes).1 _ held rfl
  | @attributes f h attributes details held =>
    exact hs.moves_revise (s.replaceAttributes h attributes details).1 _ held rfl
  | @decide f h fate held allowed =>
    obtain ⟨hg, hkept, hopen⟩ := hs.open_of_held held
    cases fate with
    | route relationship =>
      rw [Session.register_route hg hkept]
      exact .single (.route hopen (List.contains_iff_mem.1 allowed))
    | giveBack =>
      rw [Session.register_giveBack hg hkept]
      have hpolled : h.polled.isSome = true := allowed
      refine .single (.giveBack hopen ?_)
      rw [Table.mem_keys]
      simpa [Session.register, hg] using hpolled
    | undecided | drop => cases allowed
  | @drop f h held =>
    obtain ⟨hg, -, hopen⟩ := hs.open_of_held held
    show ReflTransGen _ _ (s.session.assign h .drop).register
    rw [Session.register_drop hg]
    exact .single (.drop hopen)
  | count name delta immediate =>
    unfold adjustCounter
    split <;> exact .refl

theorem Scope.Works.moves {s s' : Scope} (hs : s.session.Keyed) (h : s.Works s') :
    ReflTransGen (Register.Moves s.pool.relationships) s.session.register s'.session.register := by
  induction h with
  | refl => exact .refl
  | tail hw ht ih =>
    have hstep := ht.moves (Works.keyed hs hw)
    rw [(Works.unpublished hw).relationships] at hstep
    exact ih.trans hstep

theorem Scope.Creates.moves {s s' : Scope} (h : s.Creates s') :
    ReflTransGen (Register.Moves s.pool.relationships) s.session.register s'.session.register := by
  cases h with
  | intro f supply kind details numbered next =>
    show ReflTransGen _ _ (s.session.hold f).register
    rw [Session.register_hold]
    exact .single (.enter f)

namespace Operation

theorem run_keyed (op : Operation) {s : Scope} (hs : s.session.Keyed) :
    (op.run s).2.session.Keyed := by
  cases hop : op.settles with
  | false =>
    have heffect := op.effect hop s
    generalize (op.run s).2 = s' at heffect ⊢
    cases heffect with
    | works hw => exact hw.keyed hs
    | creates hc => exact hc.keyed hs
    | forgets _ => exact ⟨hs.current, hs.polled⟩
  | true =>
    cases op with
    | commit =>
      show s.commit.2.session.Keyed
      unfold Scope.commit
      split
      · exact hs
      · exact .of_empty rfl
    | rollback => exact .of_empty rfl
    | _ => cases hop

/-- **An operation does nothing to the tables but acts on them.** -/
theorem moves (op : Operation) {s : Scope} (hs : s.session.Keyed) :
    ReflTransGen (Register.Moves s.pool.relationships) s.session.register
      (op.run s).2.session.register := by
  cases hop : op.settles with
  | false =>
    have heffect := op.effect hop s
    generalize (op.run s).2 = s' at heffect ⊢
    cases heffect with
    | works hw => exact hw.moves hs
    | creates hc => exact hc.moves
    | forgets _ => exact .refl
  | true =>
    cases op with
    | commit =>
      show ReflTransGen _ _ s.commit.2.session.register
      unfold Scope.commit
      split
      · exact .refl
      · exact .single .clear
    | rollback => exact .single .clear
    | _ => cases hop

end Operation

end ProcessorBench
