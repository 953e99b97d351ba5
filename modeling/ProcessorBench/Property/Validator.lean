import ProcessorBench.Property.Verdict

/-!
# Validators

A validator judges the value of a property.  The standard ones accept texts that are not empty,
integers of 64 bits, positive integers of 64 bits, and the two truth values.  An integer is written
in decimal digits with at most one minus sign in front and nothing around it; leading zeros are
allowed.
-/

namespace ProcessorBench

namespace Integer

/-- The value of an ASCII digit. -/
def digit? (b : UInt8) : Option Nat :=
  if 48 ≤ b ∧ b ≤ 57 then some (b.toNat - 48) else none

/-- The number that one or more digits denote. -/
def magnitude? (t : Text) : Option Nat :=
  if t.isEmpty then none
  else t.foldlM (fun n b => (digit? b).map fun d => 10 * n + d) 0

/-- The number that the text denotes. -/
def read? : Text → Option Int
  | 45 :: digits => (magnitude? digits).map fun n => -(n : Int)
  | digits => (magnitude? digits).map fun n => (n : Int)

/-- The number that the text denotes, if 64 bits with a sign can hold it. -/
def readWord? (t : Text) : Option Int :=
  (read? t).filter fun n => Int64.minValue.toInt ≤ n ∧ n ≤ Int64.maxValue.toInt

end Integer

/-- Judges the value of the property with the given name. -/
abbrev Validator := (subject input : Text) → Verdict

namespace Validator

def nonEmpty : Validator := fun subject input =>
  if input.isEmpty then .reject subject input "value can not be empty" else .accept subject input

def integer : Validator := fun subject input =>
  match Integer.readWord? input with
  | some _ => .accept subject input
  | none => .reject subject input "value is not a valid integer"

def positiveInteger : Validator := fun subject input =>
  match Integer.readWord? input with
  | some n =>
    if 0 < n then .accept subject input
    else .reject subject input "value is not a positive integer"
  | none => .reject subject input "value is not a positive integer"

def boolean : Validator := fun subject input =>
  if input = "true" ∨ input = "false" then .accept subject input
  else .reject subject input "value must be 'true' or 'false'"

/-- The standard validator with the given name. -/
def named? (name : Text) : Option Validator :=
  if name = "non_empty" then some nonEmpty
  else if name = "integer" then some integer
  else if name = "positive_integer" then some positiveInteger
  else if name = "boolean" then some boolean
  else none

end Validator

end ProcessorBench
