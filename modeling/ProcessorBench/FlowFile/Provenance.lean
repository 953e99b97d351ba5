import ProcessorBench.FlowFile.Basic

/-!
# Provenance

What happened to flow files, one event for each thing that happened.  Kinds of event are numbered;
a number that belongs to none is kept, and reads as unknown.
-/

namespace ProcessorBench

inductive Provenance.Kind where
  | create
  | clone
  | contentModified
  | attributesModified
  | route
  | drop
  /-- A number above those of the kinds. -/
  | other (number : Nat)
  deriving DecidableEq, Repr, Inhabited

namespace Provenance.Kind

/-- The kinds that sessions record, each at the position that is its number. -/
def all : List Kind := [create, clone, contentModified, attributesModified, route, drop]

def ofNumber (n : Nat) : Kind := all[n]?.getD (other n)

def name : Kind → Text
  | create => "Create"
  | clone => "Clone"
  | contentModified => "ContentModified"
  | attributesModified => "AttributesModified"
  | route => "Route"
  | drop => "Drop"
  | other _ => "Unknown"

end Provenance.Kind

/-- One thing that happened to a flow file. -/
structure Provenance.Event where
  kind : Provenance.Kind
  flowFile : UInt64
  /-- Where the flow file went, for a routing. -/
  relationship : Text := []
  details : Text := []
  deriving DecidableEq, Repr, Inhabited

end ProcessorBench
