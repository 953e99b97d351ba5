import ProcessorBench.Error.Basic
import ProcessorBench.Table

/-!
# Flow files

A flow file is a number, a table of attributes and a content.  Flow files are values: a change
makes another version with the same number.  A content stands in a `Buffer`, which has an identity
beside its bytes, because versions and clones that did not change the content share their buffer
and a caller can ask whether two flow files do.
-/

namespace ProcessorBench

/-- Who made a buffer, and which one of his it is. -/
inductive Buffer.Origin where
  | session (serial : Nat)
  | caller (serial : Nat)
  deriving DecidableEq, Repr, Inhabited

/-- A content that is never changed in place. -/
structure Buffer where
  origin : Buffer.Origin
  bytes : List UInt8
  deriving DecidableEq, Repr, Inhabited

abbrev Attributes := Table Text Text

namespace Attributes

def filename : Text := "filename"
def path : Text := "path"
def uuid : Text := "uuid"
def mimeType : Text := "mime.type"

/-- The names of the attributes that have a fixed meaning. -/
def core : List Text := [filename, path, uuid, mimeType]

end Attributes

structure FlowFile where
  id : UInt64
  attributes : Attributes
  content : Buffer
  /-- When the flow file entered, in seconds since the epoch. -/
  entryDate : Int
  deriving DecidableEq, Inhabited

namespace FlowFile

/-- Makes a flow file of its parts; the content may not be missing. -/
def make (id : UInt64) (attributes : Attributes) (content : Option Buffer) (entryDate : Int) :
    Except Error FlowFile :=
  match content with
  | none => .error (.argument .noContent)
  | some content => .ok ⟨id, attributes, content, entryDate⟩

def attribute? (f : FlowFile) (key : Text) : Option Text := f.attributes.get? key

/-- The number of bytes of the content. -/
def size (f : FlowFile) : Nat := f.content.bytes.length

/-- The version with other attributes and the same buffer. -/
def withAttributes (f : FlowFile) (attributes : Attributes) : FlowFile := { f with attributes }

/-- The version with another buffer and the same attributes; the buffer may not be missing. -/
def withContent (f : FlowFile) (content : Option Buffer) : Except Error FlowFile :=
  make f.id f.attributes content f.entryDate

/-- Two flow files have one buffer, which is more than equal bytes. -/
def sharesContent (f g : FlowFile) : Bool := f.content.origin = g.content.origin

end FlowFile

/-- A way out of a processor. -/
structure Relationship where
  name : Text
  description : Text := []
  deriving DecidableEq, Repr, Inhabited

namespace Relationship

/-- Relationships are told apart and ordered by their names alone. -/
def order (r s : Relationship) : Ordering := compare r.name s.name

end Relationship

end ProcessorBench
