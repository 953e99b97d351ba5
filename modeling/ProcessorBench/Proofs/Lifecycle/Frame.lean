import ProcessorBench.Proofs.Lifecycle.Dispatch

/-!
# What an invocation leaves of its arguments

Whoever offers an argument for reading only relies on finding it unchanged afterwards, whatever
the hooks do and wherever they fail.  This holds although arguments of one type may be offered
repeatedly, because a hook finds the first one of a type or none.

* `Arguments.Fixed` — the arguments that no hook can change.
* `Arguments.Kept` — what invocations keep of the arguments.
* `Hook.kept_callAll` — hooks in a row keep it, however they end.
* `Component.invoke_keeps_arguments` — what an invocation can change, and what a hook can find.
-/

set_option autoImplicit false

namespace ProcessorBench

variable {S : Signature} {σ : Type}

namespace Arguments

variable {args args' args'' : Arguments S} {kind : S.Kind} {value : S.Value kind} {readOnly : Bool}
variable {before after : Arguments S}

/-! ## Looking for an argument -/

/-- None of the arguments is of the kind. -/
def Lack (args : Arguments S) (kind : S.Kind) : Prop := ∀ a ∈ args, a.kind ≠ kind

theorem first?_of_lack (h : args.Lack kind) : args.first? kind = none := by
  induction args with
  | nil => rfl
  | cons a rest ih =>
    rw [first?, dif_neg (h a (List.mem_cons_self ..))]
    exact ih fun b hb => h b (List.mem_cons_of_mem _ hb)

theorem first?_append_of_lack (h : before.Lack kind) :
    first? kind (before ++ after) = first? kind after := by
  induction before with
  | nil => rfl
  | cons a rest ih =>
    rw [List.cons_append, first?, dif_neg (h a (List.mem_cons_self ..))]
    exact ih fun b hb => h b (List.mem_cons_of_mem _ hb)

theorem first?_split (h : before.Lack kind) :
    first? kind (before ++ ⟨kind, value, readOnly⟩ :: after) = some (value, readOnly) := by
  rw [first?_append_of_lack h, first?, dif_pos rfl]

theorem set_split (h : before.Lack kind) (new : S.Value kind) :
    set kind new (before ++ ⟨kind, value, readOnly⟩ :: after) =
      before ++ ⟨kind, new, readOnly⟩ :: after := by
  induction before with
  | nil => rw [List.nil_append, set, dif_pos rfl, List.nil_append]
  | cons a rest ih =>
    rw [List.cons_append, set, dif_neg (h a (List.mem_cons_self ..)),
      ih fun b hb => h b (List.mem_cons_of_mem _ hb), List.cons_append]

/-- Arguments lack a kind, or one of them is the first of it. -/
theorem lack_or_split (args : Arguments S) (kind : S.Kind) :
    args.Lack kind ∨ ∃ before value readOnly after,
      args = before ++ ⟨kind, value, readOnly⟩ :: after ∧ Lack before kind := by
  induction args with
  | nil => exact .inl fun a ha => (List.not_mem_nil ha).elim
  | cons a rest ih =>
    by_cases ha : a.kind = kind
    · subst ha
      exact .inr ⟨[], a.value, a.readOnly, rest, rfl, fun b hb => (List.not_mem_nil hb).elim⟩
    · obtain hlack | ⟨before, value, readOnly, after, rfl, hbefore⟩ := ih
      · exact .inl (List.forall_mem_cons.2 ⟨ha, hlack⟩)
      · exact .inr ⟨a :: before, value, readOnly, after, rfl,
          List.forall_mem_cons.2 ⟨ha, hbefore⟩⟩

/-- Adds further arguments, one after the other. -/
def addAll (args more : Arguments S) : Arguments S :=
  more.foldl (fun args a => args.add a.kind a.value a.readOnly) args

theorem addAll_eq (args more : Arguments S) : args.addAll more = args ++ more := by
  induction more generalizing args with
  | nil => rw [List.append_nil]; rfl
  | cons a rest ih =>
    show addAll (args ++ [a]) rest = _
    rw [ih, List.append_assoc]
    rfl

/-! ## What is kept -/

/-- The argument at the position can not be changed: it was offered for reading only, or is not the
first of its kind. -/
def Fixed (args : Arguments S) (i : Nat) : Prop :=
  ∃ a, args[i]? = some a ∧
    (a.readOnly = true ∨ ∃ j < i, ∃ b, args[j]? = some b ∧ b.kind = a.kind)

/-- What an argument was offered as: its kind, and whether it is for reading only. -/
def labels (args : Arguments S) : List (S.Kind × Bool) := args.map fun a => (a.kind, a.readOnly)

/-- `args'` are the arguments `args`, in their order, and those that can not be changed have the
values that they had. -/
structure Kept (args args' : Arguments S) : Prop where
  labels : args'.labels = args.labels
  fixed : ∀ i, args.Fixed i → args'[i]? = args[i]?

theorem getElem?_of_labels (h : args'.labels = args.labels) {i : Nat} {a : Argument S}
    (ha : args[i]? = some a) :
    ∃ a', args'[i]? = some a' ∧ a'.kind = a.kind ∧ a'.readOnly = a.readOnly := by
  have hlabel : args'.labels[i]? = some (a.kind, a.readOnly) := by
    rw [h, Arguments.labels, List.getElem?_map, ha]
    rfl
  rw [Arguments.labels, List.getElem?_map, Option.map_eq_some_iff] at hlabel
  obtain ⟨a', ha', heq⟩ := hlabel
  exact ⟨a', ha', congrArg Prod.fst heq, congrArg Prod.snd heq⟩

theorem Fixed.of_labels (h : args'.labels = args.labels) {i : Nat} (hfixed : args.Fixed i) :
    args'.Fixed i := by
  obtain ⟨a, ha, hcause⟩ := hfixed
  obtain ⟨a', ha', hkind, hreadOnly⟩ := getElem?_of_labels h ha
  refine ⟨a', ha', ?_⟩
  obtain hro | ⟨j, hj, b, hb, hbkind⟩ := hcause
  · exact .inl (hreadOnly.trans hro)
  · obtain ⟨b', hb', hkind', -⟩ := getElem?_of_labels h hb
    exact .inr ⟨j, hj, b', hb', by rw [hkind', hbkind, hkind]⟩

theorem Kept.refl (args : Arguments S) : Kept args args := ⟨rfl, fun _ _ => rfl⟩

theorem Kept.trans (h : Kept args args') (h' : Kept args' args'') : Kept args args'' where
  labels := h'.labels.trans h.labels
  fixed i hfixed := (h'.fixed i (hfixed.of_labels h.labels)).trans (h.fixed i hfixed)

/-- A change of an argument that can be changed keeps the others. -/
theorem Kept.of_set (h : args.forChanging? kind = some value) (new : S.Value kind) :
    Kept args (args.set kind new) := by
  have hfirst := Hook.first?_of_forChanging? h
  obtain hlack | ⟨before, old, readOnly, after, rfl, hbefore⟩ := args.lack_or_split kind
  · rw [first?_of_lack hlack] at hfirst
    cases hfirst
  rw [first?_split hbefore] at hfirst
  obtain rfl : readOnly = false := congrArg Prod.snd (Option.some.inj hfirst)
  rw [set_split hbefore]
  refine ⟨by simp [Arguments.labels], ?_⟩
  rintro i ⟨a, ha, hcause⟩
  have hne : i ≠ before.length := by
    rintro rfl
    rw [List.getElem?_append_right (Nat.le_refl _), Nat.sub_self, List.getElem?_cons_zero] at ha
    obtain rfl := Option.some.inj ha
    -- it is not for reading only, and the first of its kind
    obtain hro | ⟨j, hj, b, hb, hkind⟩ := hcause
    · cases hro
    · rw [List.getElem?_append_left hj] at hb
      exact hbefore b (List.mem_of_getElem? hb) hkind
  by_cases hi : i < before.length
  · rw [List.getElem?_append_left hi, List.getElem?_append_left hi]
  · obtain ⟨d, rfl⟩ : ∃ d, i = before.length + (d + 1) := ⟨i - before.length - 1, by omega⟩
    rw [List.getElem?_append_right (by omega), List.getElem?_append_right (by omega),
      Nat.add_sub_cancel_left, List.getElem?_cons_succ, List.getElem?_cons_succ]

end Arguments

namespace Hook

theorem kept_call (hook : Hook S σ) (phase : Phase) (args : Arguments S) (s : σ) :
    args.Kept (hook.call phase args s).2.1 := by
  cases hook with
  | plain body => exact .refl args
  | reading kind body =>
    cases hvalue : args.forReading? kind <;> simp [call, hvalue, Arguments.Kept.refl]
  | changing kind body =>
    cases hvalue : args.forChanging? kind with
    | none =>
      rw [call, hvalue]
      exact .refl args
    | some value =>
      rw [call, hvalue]
      exact .of_set hvalue _

/-- Hooks in a row keep the arguments, whether they succeed or one of them fails. -/
theorem kept_callAll (phase : Phase) (position : Nat) (hooks : List (Hook S σ))
    (args : Arguments S) (s : σ) : args.Kept (callAll phase position hooks args s).2.1 := by
  induction hooks generalizing position args s with
  | nil => exact .refl args
  | cons hook rest ih =>
    have hcall := hook.kept_call phase args s
    unfold callAll
    split
    · rename_i e args₁ s₁ heq
      rwa [heq] at hcall
    · rename_i args₁ s₁ heq
      rw [heq] at hcall
      exact hcall.trans (ih (position + 1) args₁ s₁)

end Hook

namespace Component

/-- **Arguments for reading are never changed.**  Whatever the hooks of a component are and however
its invocation ends, the arguments are the same ones in the same order afterwards, and only one that
was offered for changing and is the first of its kind can have another value.  A hook that wants to
read an argument of a kind finds the first one; a hook that wants to change one finds just that
argument, or nothing if it is for reading only, whatever comes later.  Neither finds anything else
when further arguments are added. -/
theorem invoke_keeps_arguments (c : Component S σ) (phase : Phase) (args : Arguments S) (s : σ)
    (log : Log) :
    args.Kept (c.invoke phase args s log).arguments ∧
    ∀ kind,
      (args.Lack kind ∧ args.forReading? kind = none ∧ args.forChanging? kind = none) ∨
      ∃ before value readOnly after, args = before ++ ⟨kind, value, readOnly⟩ :: after ∧
        Arguments.Lack before kind ∧
        (∀ new, args.set kind new = before ++ ⟨kind, new, readOnly⟩ :: after) ∧
        ∀ more, (args.addAll more).forReading? kind = some value ∧
          (args.addAll more).forChanging? kind = if readOnly then none else some value := by
  constructor
  · have hkept := Hook.kept_callAll phase 0 (c.hooks.due phase) args s
    obtain ⟨-, hcall⟩ | ⟨i, cause, -, hcall⟩ := c.invoke_cases phase args s log
    · rwa [hcall] at hkept
    · rwa [hcall] at hkept
  · intro kind
    obtain hlack | ⟨before, value, readOnly, after, rfl, hbefore⟩ := args.lack_or_split kind
    · refine .inl ⟨hlack, ?_, ?_⟩
      · rw [Arguments.forReading?, Arguments.first?_of_lack hlack]
        rfl
      · rw [Arguments.forChanging?, Arguments.first?_of_lack hlack]
    · refine .inr ⟨before, value, readOnly, after, rfl, hbefore, Arguments.set_split hbefore, ?_⟩
      intro more
      have hfirst : Arguments.first? kind
          (Arguments.addAll (before ++ ⟨kind, value, readOnly⟩ :: after) more) =
            some (value, readOnly) := by
        rw [Arguments.addAll_eq, List.append_assoc, List.cons_append,
          Arguments.first?_split hbefore]
      constructor
      · rw [Arguments.forReading?, hfirst]
        rfl
      · rw [Arguments.forChanging?, hfirst]
        cases readOnly <;> rfl

/-- The second hook fails, because the first `false` is for reading only; the one before it has
changed the first `true`. -/
example :
    let S : Signature := { Kind := Bool, Value := fun _ => Nat, typeName := fun _ => "number" }
    let up (kind : S.Kind) : Hook S Nat := .changing kind fun n s => (.ok (), n + 1, s)
    let c : Component S Nat :=
      { typeName := "counter", hooks := [(.added, up true), (.added, up false)] }
    (c.invoke .added
        [⟨false, 5, true⟩, ⟨true, 6, false⟩, ⟨false, 7, false⟩, ⟨true, 8, false⟩] 0 {}).arguments =
      [⟨false, 5, true⟩, ⟨true, 7, false⟩, ⟨false, 7, false⟩, ⟨true, 8, false⟩] := by
  rfl

end Component

end ProcessorBench
