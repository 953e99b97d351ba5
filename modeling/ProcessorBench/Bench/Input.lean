import ProcessorBench.Bench.Basic

/-!
# Filling the input queue

Flow files can be queued as they are, or made from a content.  A flow file that is made for the
queue comes from a session of its own on a pool that is used for nothing else; the pool only
shares the supply with the bench, so the numbers go on.
-/

namespace ProcessorBench

/-- A file that a content can be read from. -/
inductive File where
  | missing (path : Text)
  | present (name : Text) (bytes : List UInt8)
  deriving DecidableEq, Repr, Inhabited

namespace Bench

variable {υ : Type}

/-- The bench with another input queue. -/
def withQueue (b : Bench υ) (queue : Queue) : Bench υ := b.withPool { b.pool with queue }

def enqueue (b : Bench υ) (f : FlowFile) : Bench υ :=
  b.withQueue (b.pool.queue.offer f)

def enqueueAll (b : Bench υ) (fs : List FlowFile) : Bench υ :=
  b.withQueue (b.pool.queue.offerAll fs)

/-- Makes a flow file in a session that is thrown away. -/
def makeFlowFile (supply : Supply) (bytes : List UInt8) (attributes : Attributes) :
    Except Error FlowFile × Supply :=
  let s : Scope := { pool := { supply := supply } }
  let (f, s) := s.create
  match s.importBytes bytes f with
  | (.error e, s) => (.error e, s.pool.supply)
  | (.ok f, s) =>
    let (r, s) := s.putAttributes f attributes
    (r, s.pool.supply)

/-- Queues a flow file with the given content. -/
def enqueueBytes (b : Bench υ) (bytes : List UInt8) (attributes : Attributes) :
    Except Error FlowFile × Bench υ :=
  let (r, supply) := makeFlowFile b.pool.supply bytes attributes
  let b := b.withPool { b.pool with supply }
  match r with
  | .error e => (.error e, b)
  | .ok f => (.ok f, b.enqueue f)

/-- Queues a flow file with the given text as its content. -/
def enqueueText (b : Bench υ) (text : Text) (attributes : Attributes) :
    Except Error FlowFile × Bench υ := b.enqueueBytes text attributes

/-- Queues a flow file with what the stream holds; a broken stream queues nothing. -/
def enqueueStream (b : Bench υ) (stream : Stream) (attributes : Attributes) :
    Except Error FlowFile × Bench υ :=
  match stream with
  | .broken => (.error (.read .enqueueing), b)
  | .readable bytes => b.enqueueBytes bytes attributes

/-- Queues a flow file with the content of a file, and with its name unless the attributes have
another one. -/
def enqueueFile (b : Bench υ) (file : File) (attributes : Attributes) :
    Except Error FlowFile × Bench υ :=
  match file with
  | .missing path => (.error (.read (.opening path)), b)
  | .present name bytes => b.enqueueBytes bytes (attributes.insertIfNew Attributes.filename name)

end Bench

end ProcessorBench
