import ProcessorBench.Session.Edit
import ProcessorBench.Session.Settle

/-!
# Operations as data

Every operation of a session as a value, and `Operation.run`, which carries one out.
-/

namespace ProcessorBench

/-- One call on a session. -/
inductive Operation where
  | create
  | createChild (parent : FlowFile)
  | clone (source : FlowFile)
  | poll
  | pollUpTo (max : Nat)
  | importBytes (bytes : List UInt8) (f : FlowFile)
  | importStream (stream : Stream) (f : FlowFile)
  | write (writer : Option Writer) (f : FlowFile)
  | putAttribute (f : FlowFile) (key value : Text)
  | putAttributes (f : FlowFile) (attributes : Attributes)
  | removeAttribute (f : FlowFile) (key : Text)
  | read (f : FlowFile)
  | route (f : FlowFile) (relationship : Text)
  | routeAll (fs : List FlowFile) (relationship : Text)
  | giveBack (f : FlowFile)
  | drop (f : FlowFile)
  | adjustCounter (name : Text) (delta : Int64) (immediate : Bool)
  | commit
  | rollback
  | clearRouted

/-- What a call answers. -/
inductive Answer where
  | done
  | flowFile (f : FlowFile)
  | flowFiles (fs : List FlowFile)
  | content (bytes : List UInt8)
  deriving DecidableEq, Inhabited

/-- The flow files that a call answers. -/
def Answer.files : Answer → List FlowFile
  | flowFile f => [f]
  | flowFiles fs => fs
  | _ => []

/-- The bytes that a call answers. -/
def Answer.bytes : Answer → List UInt8
  | content bytes => bytes
  | _ => []

namespace Operation

/-- Carries out the operation.  The scope that is left counts also when the operation fails. -/
def run (op : Operation) (s : Scope) : Except Error Answer × Scope :=
  match op with
  | create => give .flowFile s.create
  | createChild parent => answer .flowFile (s.createChild parent)
  | clone source => answer .flowFile (s.clone source)
  | poll => give (fun f? => .flowFiles f?.toList) s.poll
  | pollUpTo max => give .flowFiles (s.pollUpTo max)
  | importBytes bytes f => answer .flowFile (s.importBytes bytes f)
  | importStream stream f => answer .flowFile (s.importStream stream f)
  | write writer f => answer .flowFile (s.write writer f)
  | putAttribute f key value => answer .flowFile (s.putAttribute f key value)
  | putAttributes f attributes => answer .flowFile (s.putAttributes f attributes)
  | removeAttribute f key => answer .flowFile (s.removeAttribute f key)
  | read f => answer .content (s.read f)
  | route f relationship => answer (fun _ => .done) (s.route f relationship)
  | routeAll fs relationship => answer (fun _ => .done) (s.routeAll fs relationship)
  | giveBack f => answer (fun _ => .done) (s.giveBack f)
  | drop f => answer (fun _ => .done) (s.drop f)
  | adjustCounter name delta immediate => (.ok .done, s.adjustCounter name delta immediate)
  | commit => answer (fun _ => .done) s.commit
  | rollback => (.ok .done, s.rollback)
  | clearRouted => (.ok .done, s.clearRouted)
where
  answer {α : Type} (f : α → Answer) (r : Except Error α × Scope) : Except Error Answer × Scope :=
    (r.1.map f, r.2)
  give {α : Type} (f : α → Answer) (r : α × Scope) : Except Error Answer × Scope :=
    (.ok (f r.1), r.2)

/-- The operation ends a unit of work. -/
def settles : Operation → Bool
  | commit | rollback => true
  | _ => false

end Operation

end ProcessorBench
