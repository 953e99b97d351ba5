import ProcessorBench.Error.Basic
import ProcessorBench.Lifecycle.Arguments

/-!
# Hooks

A hook is what a component does at a phase of its life.  It works on the state of the component
and may ask for one argument, to read or to change.  A component declares its hooks in a row, and
may declare one several times.
-/

namespace ProcessorBench

inductive Hook (S : Signature) (σ : Type) where
  | plain (body : σ → Except Error Unit × σ)
  | reading (kind : S.Kind) (body : S.Value kind → σ → Except Error Unit × σ)
  | changing (kind : S.Kind) (body : S.Value kind → σ → Except Error Unit × S.Value kind × σ)

namespace Hook

variable {S : Signature} {σ : Type}

/-- Calls the hook.  A hook that does not find its argument fails before it begins. -/
def call (hook : Hook S σ) (phase : Phase) (args : Arguments S) (s : σ) :
    Except Error Unit × Arguments S × σ :=
  match hook with
  | plain body =>
    let (r, s) := body s
    (r, args, s)
  | reading kind body =>
    match args.forReading? kind with
    | none => (.error (.argument (.noHookArgument phase (S.typeName kind))), args, s)
    | some value =>
      let (r, s) := body value s
      (r, args, s)
  | changing kind body =>
    match args.forChanging? kind with
    | none => (.error (.argument (.noHookArgument phase (S.typeName kind))), args, s)
    | some value =>
      let (r, value, s) := body value s
      (r, args.set kind value, s)

/-- Calls hooks one after the other.  The first failure ends the row and comes with the position
of its hook, counted from `position`. -/
def callAll (phase : Phase) (position : Nat) (hooks : List (Hook S σ)) (args : Arguments S)
    (s : σ) : Except (Nat × Error) Unit × Arguments S × σ :=
  match hooks with
  | [] => (.ok (), args, s)
  | hook :: rest =>
    match hook.call phase args s with
    | (.error e, args, s) => (.error (position, e), args, s)
    | (.ok (), args, s) => callAll phase (position + 1) rest args s

end Hook

/-- The declarations of a component, in their order: a hook, and the phase at which it is due. -/
abbrev HookTable (S : Signature) (σ : Type) := List (Phase × Hook S σ)

namespace HookTable

variable {S : Signature} {σ : Type}

/-- Declares a hook after those declared before; the hook may not be missing. -/
def declare (t : HookTable S σ) (phase : Phase) (hook : Option (Hook S σ)) :
    Except Error (HookTable S σ) :=
  match hook with
  | none => .error (.argument .noHook)
  | some hook => .ok (t ++ [(phase, hook)])

/-- The hooks that are due at the phase, in the order of their declarations. -/
def due (t : HookTable S σ) (phase : Phase) : List (Hook S σ) :=
  (t.filter (·.1 = phase)).map Prod.snd

end HookTable

end ProcessorBench
