import ProcessorBench.Lifecycle.Hook
import ProcessorBench.Log

/-!
# Targets

A component is told about its life through a target, which is bound to the hooks of one type.
Binding an instance through a type that is not its own would call the wrong hooks, so it is
refused wherever the types can be told apart.
-/

namespace ProcessorBench

/-- A type of component: its name, its hooks, and whether an instance tells its own type. -/
structure Component (S : Signature) (σ : Type) where
  typeName : Text
  polymorphic : Bool := true
  hooks : HookTable S σ := []

/-- How an invocation ended, and what it left behind. -/
structure Invocation (S : Signature) (σ : Type) where
  outcome : Except Error Unit
  arguments : Arguments S
  state : σ
  log : Log

/-- The name under which calls of hooks are noted. -/
def Component.logger : Text := "LifecycleInvoker"

namespace Component

variable {S : Signature} {σ : Type}

/-- Calls the hooks that are due at the phase. -/
def invoke (c : Component S σ) (phase : Phase) (args : Arguments S) (s : σ) (log : Log) :
    Invocation S σ :=
  match c.hooks.due phase with
  | [] => ⟨.ok (), args, s, log⟩
  | hooks =>
    let log := log.note logger .debug <|
      Text.join ["Invoking ", Text.decimal hooks.length, " ", phase.name, " hook(s) on '",
        c.typeName, "'"]
    match Hook.callAll phase 0 hooks args s with
    | (.ok (), args, s) => ⟨.ok (), args, s, log⟩
    | (.error (i, e), args, s) =>
      let log := log.note logger .error <|
        Text.join [phase.name, " hook ", Text.decimal i, " on '", c.typeName, "' failed: ",
          e.describe]
      ⟨.error (.lifecycle phase c.typeName e), args, s, log⟩

end Component

/-- What hooks are called through; unbound if there is no component. -/
structure Target (S : Signature) (σ : Type) where
  component : Option (Component S σ) := none

namespace Target

variable {S : Signature} {σ : Type}

/-- Binds an instance through a type.  The instance comes as the name of its own type; it may not
be missing. -/
def bind (declared : Component S σ) (actual : Option Text) : Except Error (Target S σ) :=
  match actual with
  | none => .error (.argument .noInstance)
  | some actual =>
    if declared.polymorphic && actual ≠ declared.typeName then
      .error (.argument (.boundThroughBase declared.typeName actual))
    else .ok ⟨some declared⟩

def isBound (t : Target S σ) : Bool := t.component.isSome

/-- The name of the type that the target is bound to. -/
def typeName (t : Target S σ) : Text := (t.component.map (·.typeName)).getD []

/-- Calls the hooks of the component, if the target is bound to one. -/
def invoke (t : Target S σ) (phase : Phase) (args : Arguments S) (s : σ) (log : Log) :
    Invocation S σ :=
  match t.component with
  | none => ⟨.error .unboundTarget, args, s, log⟩
  | some c => c.invoke phase args s log

end Target

end ProcessorBench
