import ProcessorBench.Error.Basic
import ProcessorBench.Property.Validator

/-!
# Property descriptors

A descriptor names a property of a component and says which values it may have.
-/

namespace ProcessorBench

structure Descriptor where
  name : Text
  description : Text := []
  required : Bool := false
  defaultValue : Option Text := none
  /-- The values that are allowed; if there are none, any value is. -/
  allowed : List Text := []
  validator : Option Validator := none
  name_ne : name ≠ []

namespace Descriptor

/-- Makes a descriptor of its parts; the name may not be empty. -/
def make (name description : Text) (required : Bool) (defaultValue : Option Text)
    (allowed : List Text) (validator : Option Validator) : Except Error Descriptor :=
  if h : name = [] then .error (.argument .emptyPropertyName)
  else .ok { name, description, required, defaultValue, allowed, validator, name_ne := h }

/-- Descriptors are told apart and ordered by their names alone. -/
def order (d e : Descriptor) : Ordering := compare d.name e.name

/-- Judges a value that is present. -/
def judge (d : Descriptor) (input : Text) : Verdict :=
  if !d.allowed.isEmpty && !d.allowed.contains input then
    .reject d.name input <| Text.join ["'", input, "' is not one of the allowable values: ",
      Text.intercalate ", " d.allowed]
  else
    match d.validator with
    | some validator => validator d.name input
    | none => .accept d.name input

/-- Judges the value, or the default if there is no value. -/
def validate (d : Descriptor) (value : Option Text) : Verdict :=
  match value.or d.defaultValue with
  | some input => d.judge input
  | none =>
    if d.required then .reject d.name [] (Text.join ["'", d.name, "' is required"])
    else .accept d.name []

end Descriptor

end ProcessorBench
