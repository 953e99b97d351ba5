import ProcessorBench.Lifecycle.Target

/-!
# Which hooks an invocation calls

A component declares hooks for several phases in one row, a derived one after those of its base.
An invocation calls those of one phase, each on the arguments and the state that the one before it
left, until one fails.

* `Hook.Succeed` — hooks that are called one after the other, and none fails.
* `Hook.noting`, `Component.noting` — hooks that note their number where their body begins, so that
  one can see which bodies were entered, how often and in which order.
* `Hook.first?_call` — what a hook leaves in its argument is what the next one finds.
* `Component.invoke_dispatches` — what an invocation does, for any declarations and arguments.
-/

set_option autoImplicit false

namespace ProcessorBench

variable {S : Signature} {σ : Type}

/-! ## Arguments after a change -/

namespace Arguments

variable (args : Arguments S) (kind : S.Kind) (value : S.Value kind)

theorem first?_set :
    (args.set kind value).first? kind = (args.first? kind).map fun a => (value, a.2) := by
  induction args with
  | nil => rfl
  | cons a rest ih =>
    unfold set first?
    by_cases h : a.kind = kind
    · subst h
      simp
    · simp [h, ih]

theorem first?_set_of_ne {k : S.Kind} (hk : k ≠ kind) :
    (args.set kind value).first? k = args.first? k := by
  induction args with
  | nil => rfl
  | cons a rest ih =>
    unfold set
    by_cases h : a.kind = kind
    · subst h
      simp [first?, hk.symm]
    · simp [first?, h, ih]

end Arguments

/-! ## One hook -/

namespace Hook

/-- The kind of argument that the hook asks for. -/
def asks? : Hook S σ → Option S.Kind
  | plain _ => none
  | reading kind _ => some kind
  | changing kind _ => some kind

/-- The hook asks for no argument, or the arguments have one that it can use. -/
def isServed (hook : Hook S σ) (args : Arguments S) : Bool :=
  match hook with
  | plain _ => true
  | reading kind _ => (args.forReading? kind).isSome
  | changing kind _ => (args.forChanging? kind).isSome

/-- The value that the hook leaves in the argument of the kind, if it changes that one. -/
def leaves? (hook : Hook S σ) (args : Arguments S) (s : σ) (kind : S.Kind) :
    Option (S.Value kind) :=
  match hook with
  | changing k body => (args.forChanging? k).bind fun value =>
      if h : k = kind then some (h ▸ (body value s).2.1) else none
  | _ => none

/-- The hook with a note of its number, made where its body begins. -/
def noting (number : Nat) : Hook S σ → Hook S (σ × List Nat)
  | plain body => .plain fun s =>
      let (r, t) := body s.1
      (r, t, s.2 ++ [number])
  | reading kind body => .reading kind fun value s =>
      let (r, t) := body value s.1
      (r, t, s.2 ++ [number])
  | changing kind body => .changing kind fun value s =>
      let (r, value, t) := body value s.1
      (r, value, t, s.2 ++ [number])

variable {phase : Phase} {args args' : Arguments S} {s s' : σ}

/-- A hook that does not find its argument fails, and its body is not entered. -/
theorem call_of_not_served (phase : Phase) {hook : Hook S σ} (h : hook.isServed args = false)
    (s : σ) :
    ∃ kind, hook.asks? = some kind ∧ hook.call phase args s =
      (.error (.argument (.noHookArgument phase (S.typeName kind))), args, s) := by
  cases hook with
  | plain body => cases h
  | reading kind body =>
    have hnone : args.forReading? kind = none := by simpa [isServed] using h
    exact ⟨kind, rfl, by simp [call, hnone]⟩
  | changing kind body =>
    have hnone : args.forChanging? kind = none := by simpa [isServed] using h
    exact ⟨kind, rfl, by simp [call, hnone]⟩

theorem isServed_of_call_eq_ok {hook : Hook S σ} (h : (hook.call phase args s).1 = .ok ()) :
    hook.isServed args = true := by
  cases hserved : hook.isServed args with
  | true => rfl
  | false =>
    obtain ⟨kind, -, hcall⟩ := call_of_not_served phase hserved s
    rw [hcall] at h
    cases h

/-- A hook that notes its number does what it does without, and notes it if it is entered. -/
theorem call_noting (phase : Phase) (args : Arguments S) (s : σ) (number : Nat) (hook : Hook S σ)
    (l : List Nat) :
    (hook.noting number).call phase args (s, l) =
      ((hook.call phase args s).1, (hook.call phase args s).2.1, (hook.call phase args s).2.2,
        l ++ if hook.isServed args then [number] else []) := by
  cases hook with
  | plain body => rfl
  | reading kind body =>
    cases hvalue : args.forReading? kind <;> simp [noting, call, isServed, hvalue]
  | changing kind body =>
    cases hvalue : args.forChanging? kind <;> simp [noting, call, isServed, hvalue]

/-- What can be changed was found first, and not for reading only. -/
theorem first?_of_forChanging? {kind : S.Kind} {value : S.Value kind}
    (h : args.forChanging? kind = some value) : args.first? kind = some (value, false) := by
  unfold Arguments.forChanging? at h
  split at h
  · rename_i v hfirst
    rw [hfirst, Option.some.inj h]
  · cases h

/-- **What is found after a call**: what the hook left, and otherwise what was found before. -/
theorem first?_call (hook : Hook S σ) (kind : S.Kind) :
    (hook.call phase args s).2.1.first? kind =
      (args.first? kind).map fun a => ((hook.leaves? args s kind).getD a.1, a.2) := by
  cases hook with
  | plain body => simp [call, leaves?]
  | reading k body => cases hvalue : args.forReading? k <;> simp [call, leaves?, hvalue]
  | changing k body =>
    cases hvalue : args.forChanging? k with
    | none => simp [call, leaves?, hvalue]
    | some value =>
      by_cases hk : k = kind
      · subst hk
        simp [call, leaves?, hvalue, Arguments.first?_set, first?_of_forChanging? hvalue]
      · have hk' : kind ≠ k := fun h => hk h.symm
        simp [call, leaves?, hvalue, Arguments.first?_set_of_ne, hk, hk']

/-! ## Hooks in a row -/

/-- The hooks succeed one after the other, each on the arguments and the state that the one before
it left. -/
inductive Succeed (phase : Phase) :
    List (Hook S σ) → Arguments S → σ → Arguments S → σ → Prop where
  | nil (args : Arguments S) (s : σ) : Succeed phase [] args s args s
  | cons {hook : Hook S σ} {rest : List (Hook S σ)} {args args₁ args' : Arguments S} {s s₁ s' : σ}
      (first : hook.call phase args s = (.ok (), args₁, s₁))
      (later : Succeed phase rest args₁ s₁ args' s') : Succeed phase (hook :: rest) args s args' s'

/-- A row of hooks succeeds exactly if each of them does. -/
theorem callAll_eq_ok_iff {position : Nat} {hooks : List (Hook S σ)} :
    callAll phase position hooks args s = (.ok (), args', s') ↔
      Succeed phase hooks args s args' s' := by
  induction hooks generalizing position args s with
  | nil =>
    constructor
    · intro h
      cases h
      exact .nil _ _
    · intro h
      cases h
      rfl
  | cons hook rest ih =>
    unfold callAll
    constructor
    · intro h
      split at h
      · cases h
      · rename_i args₁ s₁ hcall
        exact .cons hcall (ih.1 h)
    · intro h
      cases h with
      | cons first later =>
        rw [first]
        exact ih.2 later

/-- A row of hooks fails with the first hook that does. -/
theorem callAll_eq_error_iff {position i : Nat} {hooks : List (Hook S σ)} {e : Error} :
    callAll phase position hooks args s = (.error (i, e), args', s') ↔
      ∃ before hook after args₁ s₁, hooks = before ++ hook :: after ∧
        i = position + before.length ∧ Succeed phase before args s args₁ s₁ ∧
        hook.call phase args₁ s₁ = (.error e, args', s') := by
  constructor
  · intro h
    induction hooks generalizing position args s with
    | nil => cases h
    | cons hook rest ih =>
      unfold callAll at h
      split at h
      · rename_i d args₁ s₁ hcall
        cases h
        exact ⟨[], hook, rest, args, s, rfl, rfl, .nil args s, hcall⟩
      · rename_i args₁ s₁ hcall
        obtain ⟨before, failing, after, args₂, s₂, rfl, rfl, hbefore, hfails⟩ := ih h
        refine ⟨hook :: before, failing, after, args₂, s₂, rfl, ?_, .cons hcall hbefore, hfails⟩
        rw [List.length_cons]
        omega
  · rintro ⟨before, hook, after, args₁, s₁, rfl, rfl, hbefore, hfails⟩
    induction hbefore generalizing position with
    | nil args s =>
      rw [List.nil_append, callAll, hfails]
      rfl
    | cons first later ih =>
      have hrest : callAll phase (position + 1) _ _ _ = _ := ih hfails
      rw [List.cons_append, callAll, first]
      dsimp only
      rw [hrest, List.length_cons]
      congr 3
      omega

/-- Hooks that succeed also do so if they note their numbers, and all of them do. -/
theorem Succeed.noting {row : List (Nat × Hook S σ)}
    (h : Succeed phase (row.map Prod.snd) args s args' s') (l : List Nat) :
    Succeed phase (row.map fun e => e.2.noting e.1) args (s, l) args'
      (s', l ++ row.map Prod.fst) := by
  induction row generalizing args s l with
  | nil =>
    cases h
    rw [List.map_nil, List.map_nil, List.append_nil]
    exact .nil _ _
  | cons e rest ih =>
    cases h with
    | @cons _ _ _ args₁ _ _ s₁ _ first later =>
      have hserved : e.2.isServed args = true :=
        isServed_of_call_eq_ok (congrArg Prod.fst first)
      have hcall := call_noting phase args s e.1 e.2 l
      rw [first, hserved, if_pos rfl] at hcall
      have hrest := ih later (l ++ [e.1])
      rw [List.append_assoc] at hrest
      exact .cons hcall hrest

end Hook

/-! ## The hooks of a component -/

namespace HookTable

/-- Declares hooks one after the other. -/
def declareAll (t : HookTable S σ) (declarations : List (Phase × Hook S σ)) :
    Except Error (HookTable S σ) :=
  declarations.foldlM (fun t d => t.declare d.1 (some d.2)) t

/-- The hooks that are due at the phase, each with the position of its declaration. -/
def numbered (t : HookTable S σ) (phase : Phase) : List (Nat × Hook S σ) :=
  (t.zipIdx.filter fun e => e.1.1 = phase).map fun e => (e.2, e.1.2)

/-- The hooks with notes of the positions of their declarations. -/
def noting (t : HookTable S σ) : HookTable S (σ × List Nat) :=
  t.zipIdx.map fun e => (e.1.1, e.1.2.noting e.2)

theorem declareAll_eq (t : HookTable S σ) (declarations : List (Phase × Hook S σ)) :
    t.declareAll declarations = .ok (t ++ declarations) := by
  induction declarations generalizing t with
  | nil =>
    rw [List.append_nil]
    rfl
  | cons d rest ih =>
    show declareAll (t ++ [d]) rest = _
    rw [ih, List.append_assoc]
    rfl

theorem due_append (t u : HookTable S σ) (phase : Phase) :
    due (t ++ u) phase = t.due phase ++ u.due phase := by
  unfold due
  rw [List.filter_append, List.map_append]

theorem map_snd_numbered (t : HookTable S σ) (phase : Phase) :
    (t.numbered phase).map Prod.snd = t.due phase := by
  calc (t.numbered phase).map Prod.snd
      = ((t.zipIdx.map Prod.fst).filter (·.1 = phase)).map Prod.snd := by
        unfold numbered
        rw [List.filter_map, List.map_map, List.map_map]
        rfl
    _ = t.due phase := by rw [List.zipIdx_map_fst, due]

/-- Positions ascend, so no declaration is counted twice. -/
theorem map_fst_numbered_ascending (t : HookTable S σ) (phase : Phase) :
    ((t.numbered phase).map Prod.fst).Pairwise (· < ·) := by
  unfold numbered
  rw [List.map_map]
  have hsublist := (List.filter_sublist (l := t.zipIdx) (p := fun e => e.1.1 = phase)).map Prod.snd
  rw [List.zipIdx_map_snd] at hsublist
  exact List.Pairwise.sublist hsublist List.pairwise_lt_range'

theorem due_noting (t : HookTable S σ) (phase : Phase) :
    t.noting.due phase = (t.numbered phase).map fun e => e.2.noting e.1 := by
  unfold noting due numbered
  rw [List.filter_map, List.map_map, List.map_map]
  rfl

/-- Hooks that are due at other phases may be declared or not. -/
theorem due_filter (t : HookTable S σ) (phase : Phase) :
    due (t.filter (·.1 = phase)) phase = t.due phase := by
  unfold due
  rw [List.filter_filter]
  simp

end HookTable

namespace Component

variable {phase : Phase} {args : Arguments S} {s : σ}

/-- The component whose hooks note the positions of their declarations. -/
def noting (c : Component S σ) : Component S (σ × List Nat) where
  typeName := c.typeName
  polymorphic := c.polymorphic
  hooks := c.hooks.noting

/-- What there is to say of an invocation `r` for the hooks of a `row`, and of the numbers of those
whose bodies were `entered`. -/
structure Dispatched (phase : Phase) (typeName : Text) (row : List (Nat × Hook S σ))
    (args : Arguments S) (s : σ) (r : Invocation S σ) (entered : List Nat) : Prop where
  /-- It returns exactly if all hooks succeed. -/
  returns_iff : r.outcome = .ok () ↔
    ∃ args' s', Hook.Succeed phase (row.map Prod.snd) args s args' s'
  /-- Then each of them was entered, in their order, and it leaves what the last one left. -/
  returned : r.outcome = .ok () →
    Hook.Succeed phase (row.map Prod.snd) args s r.arguments r.state ∧
      entered = row.map Prod.fst
  /-- Otherwise it stops at the first hook that fails, also if that one was not entered because it
  did not find its argument, and leaves what this hook left. -/
  stopped : ∀ error, r.outcome = .error error →
    ∃ before number hook after args₁ s₁ cause, row = before ++ (number, hook) :: after ∧
      Hook.Succeed phase (before.map Prod.snd) args s args₁ s₁ ∧
      hook.call phase args₁ s₁ = (.error cause, r.arguments, r.state) ∧
      error = .lifecycle phase typeName cause ∧
      entered = before.map Prod.fst ++ (if hook.isServed args₁ then [number] else []) ∧
      (hook.isServed args₁ = false → ∃ kind, hook.asks? = some kind ∧
        cause = .argument (.noHookArgument phase (S.typeName kind)))

variable {typeName : Text} {row : List (Nat × Hook S σ)} {r : Invocation S σ} {log : Log}

theorem Dispatched.of_ok
    (hcall : Hook.callAll phase 0 (row.map Prod.snd) args s = (.ok (), r.arguments, r.state))
    (houtcome : r.outcome = .ok ()) :
    Dispatched phase typeName row args s r (row.map Prod.fst) where
  returns_iff := ⟨fun _ => ⟨_, _, Hook.callAll_eq_ok_iff.1 hcall⟩, fun _ => houtcome⟩
  returned _ := ⟨Hook.callAll_eq_ok_iff.1 hcall, rfl⟩
  stopped error herror := by
    rw [houtcome] at herror
    cases herror

theorem Dispatched.of_error {before after : List (Nat × Hook S σ)} {number : Nat}
    {hook : Hook S σ} {args₁ : Arguments S} {s₁ : σ} {cause : Error}
    (hrow : row = before ++ (number, hook) :: after)
    (hbefore : Hook.Succeed phase (before.map Prod.snd) args s args₁ s₁)
    (hfails : hook.call phase args₁ s₁ = (.error cause, r.arguments, r.state))
    (houtcome : r.outcome = .error (.lifecycle phase typeName cause)) :
    Dispatched phase typeName row args s r
      (before.map Prod.fst ++ if hook.isServed args₁ then [number] else []) where
  returns_iff := by
    constructor
    · intro hok
      rw [houtcome] at hok
      cases hok
    · rintro ⟨args', s', hall⟩
      -- the row has one outcome only, and it is a failure
      have hok : Hook.callAll phase 0 _ _ _ = _ := Hook.callAll_eq_ok_iff.2 hall
      have herror : Hook.callAll phase 0 _ _ _ = _ := Hook.callAll_eq_error_iff.2
        ⟨_, hook, after.map Prod.snd, args₁, s₁, rfl, rfl, hbefore, hfails⟩
      rw [hrow, List.map_append, List.map_cons, herror] at hok
      cases hok
  returned hok := by
    rw [houtcome] at hok
    cases hok
  stopped error herror := by
    have herror' := Except.error.inj (herror.symm.trans houtcome)
    refine ⟨before, number, hook, after, args₁, s₁, cause, hrow, hbefore, hfails, herror', rfl,
      fun hserved => ?_⟩
    obtain ⟨kind, hasks, hcall⟩ := Hook.call_of_not_served phase hserved s₁
    rw [hcall] at hfails
    exact ⟨kind, hasks, (Except.error.inj (congrArg Prod.fst hfails)).symm⟩

/-- Of the hooks that are due, an invocation shows how many they are and how they end in a row. -/
theorem invoke_congr {τ : Type} {c : Component S σ} {c' : Component S τ} {t t' : τ}
    (hname : c'.typeName = c.typeName)
    (hlength : (c'.hooks.due phase).length = (c.hooks.due phase).length)
    (hcall : Hook.callAll phase 0 (c'.hooks.due phase) args t =
      ((Hook.callAll phase 0 (c.hooks.due phase) args s).1,
        (Hook.callAll phase 0 (c.hooks.due phase) args s).2.1, t')) :
    c'.invoke phase args t log =
      ⟨(c.invoke phase args s log).outcome, (c.invoke phase args s log).arguments, t',
        (c.invoke phase args s log).log⟩ := by
  unfold invoke
  rw [hname]
  generalize c.hooks.due phase = due at hlength hcall ⊢
  generalize c'.hooks.due phase = due' at hlength hcall ⊢
  cases due with
  | nil =>
    obtain rfl := List.length_eq_zero_iff.1 hlength
    obtain rfl : t = t' := congrArg (fun p => p.2.2) hcall
    rfl
  | cons hook rest =>
    cases due' with
    | nil => cases hlength
    | cons hook' rest' =>
      dsimp only
      rw [hcall, hlength]
      obtain ⟨answer, args', s'⟩ := Hook.callAll phase 0 (hook :: rest) args s
      cases answer <;> rfl

/-- The invocation ends as the hooks that are due do in a row. -/
theorem invoke_cases (c : Component S σ) (phase : Phase) (args : Arguments S) (s : σ) (log : Log) :
    let r := c.invoke phase args s log
    (r.outcome = .ok () ∧
      Hook.callAll phase 0 (c.hooks.due phase) args s = (.ok (), r.arguments, r.state)) ∨
    ∃ i cause, r.outcome = .error (.lifecycle phase c.typeName cause) ∧
      Hook.callAll phase 0 (c.hooks.due phase) args s =
        (.error (i, cause), r.arguments, r.state) := by
  intro r
  have hr : r = c.invoke phase args s log := rfl
  unfold invoke at hr
  split at hr
  · rename_i hnone
    rw [hr, hnone]
    exact .inl ⟨rfl, rfl⟩
  · split at hr
    · rename_i args' s' hcall
      rw [hr, hcall]
      exact .inl ⟨rfl, rfl⟩
    · rename_i i e args' s' hcall
      rw [hr, hcall]
      exact .inr ⟨i, e, rfl, rfl⟩

/-- Hooks that note their numbers are dispatched like those that do not. -/
theorem invoke_noting (c : Component S σ) (phase : Phase) (args : Arguments S) (s : σ)
    (log : Log) :
    let r := c.invoke phase args s log
    ∃ entered, c.noting.invoke phase args (s, []) log =
        ⟨r.outcome, r.arguments, (r.state, entered), r.log⟩ ∧
      Dispatched phase c.typeName (c.hooks.numbered phase) args s r entered := by
  intro r
  have hdue := c.hooks.map_snd_numbered phase
  have hnoted : c.noting.hooks.due phase =
      (c.hooks.numbered phase).map fun e => e.2.noting e.1 := c.hooks.due_noting phase
  have hlength : (c.noting.hooks.due phase).length = (c.hooks.due phase).length := by
    rw [hnoted, ← hdue, List.length_map, List.length_map]
  generalize c.hooks.numbered phase = row at hdue hnoted
  obtain ⟨houtcome, hcall⟩ | ⟨i, cause, houtcome, hcall⟩ := c.invoke_cases phase args s log
  · rw [← hdue] at hcall
    have hall := (Hook.callAll_eq_ok_iff.1 hcall).noting []
    rw [← hnoted, List.nil_append] at hall
    refine ⟨row.map Prod.fst, invoke_congr rfl hlength ?_, .of_ok hcall houtcome⟩
    rw [Hook.callAll_eq_ok_iff.2 hall, ← hdue, hcall]
  · rw [← hdue] at hcall
    obtain ⟨before, hook, after, args₁, s₁, hrow, rfl, hbefore, hfails⟩ :=
      Hook.callAll_eq_error_iff.1 hcall
    obtain ⟨before, rest, rfl, rfl, hrest⟩ := List.map_eq_append_iff.1 hrow
    obtain ⟨e, after, rfl, rfl, rfl⟩ := List.map_eq_cons_iff.1 hrest
    refine ⟨_, invoke_congr rfl hlength ?_, .of_error rfl hbefore hfails houtcome⟩
    have hcalled := Hook.call_noting phase args₁ s₁ e.1 e.2 (before.map Prod.fst)
    rw [hfails] at hcalled
    rw [← hdue, hcall]
    refine Hook.callAll_eq_error_iff.2 ⟨_, e.2.noting e.1, after.map fun e => e.2.noting e.1, args₁,
      _, ?_, ?_, hbefore.noting [], hcalled⟩
    · rw [hnoted, List.map_append, List.map_cons]
    · rw [List.length_map, List.length_map]

/-- **Invocations dispatch hooks.**  A component declares the hooks of its `base` and then its
`own`, for several phases and some of them repeatedly.  Then an invocation concerns the hooks
declared for its phase, each declaration once and in their order, and no others; it is told from
notes that the hooks make, which change nothing.  With no hook for the phase it does nothing.  What
a hook leaves in its argument, the next one finds. -/
theorem invoke_dispatches (typeName : Text) (polymorphic : Bool) (base own : HookTable S σ)
    (phase : Phase) (args : Arguments S) (s : σ) (log : Log) :
    ∃ t, ((HookTable.declareAll [] base).bind fun t => t.declareAll own) = .ok t ∧
      let c : Component S σ := { typeName, polymorphic, hooks := t }
      let row := t.numbered phase
      let r := c.invoke phase args s log
      row.map Prod.snd = base.due phase ++ own.due phase ∧
      (row.map Prod.fst).Pairwise (· < ·) ∧
      (∃ entered, c.noting.invoke phase args (s, []) log =
          ⟨r.outcome, r.arguments, (r.state, entered), r.log⟩ ∧
        Dispatched phase typeName row args s r entered) ∧
      (row = [] → r = ⟨.ok (), args, s, log⟩) ∧
      { c with hooks := t.filter (·.1 = phase) }.invoke phase args s log = r ∧
      ∀ hook ∈ row.map Prod.snd, ∀ args₁ s₁ kind,
        (hook.call phase args₁ s₁).2.1.first? kind =
          (args₁.first? kind).map fun a => ((hook.leaves? args₁ s₁ kind).getD a.1, a.2) := by
  refine ⟨base ++ own, ?_, ?_⟩
  · rw [HookTable.declareAll_eq]
    exact HookTable.declareAll_eq base own
  intro c row r
  refine ⟨?_, HookTable.map_fst_numbered_ascending _ phase, c.invoke_noting phase args s log, ?_,
    ?_, fun hook _ _ _ kind => hook.first?_call kind⟩
  · rw [HookTable.map_snd_numbered, HookTable.due_append]
  · intro hrow
    have hnone : c.hooks.due phase = [] := by
      rw [← HookTable.map_snd_numbered]
      exact congrArg (List.map Prod.snd) hrow
    show c.invoke phase args s log = _
    unfold invoke
    rw [hnone]
  · have hdue : HookTable.due (c.hooks.filter (·.1 = phase)) phase = c.hooks.due phase :=
      HookTable.due_filter _ phase
    show invoke _ phase args s log = c.invoke phase args s log
    unfold invoke
    rw [hdue]

/-- The first hook of the base counts up, the second one of its own fails, and the last one is not
called. -/
example :
    let S : Signature := { Kind := Unit, Value := fun _ => Nat, typeName := fun _ => "count" }
    let up : Hook S Nat := .changing () fun n s => (.ok (), n + 1, s)
    let fails : Hook S Nat := .reading () fun n _ => (.error .foreign, n)
    let base : HookTable S Nat := [(.scheduled, up), (.stopped, fails)]
    let own : HookTable S Nat := [(.scheduled, up), (.scheduled, fails), (.scheduled, up)]
    let c : Component S Nat := { typeName := "counter", hooks := base ++ own }
    (c.noting.invoke .scheduled [⟨(), 5, false⟩] (0, []) {}).state = (7, [0, 2, 3]) := by
  rfl

end Component

end ProcessorBench
