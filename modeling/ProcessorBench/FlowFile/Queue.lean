import ProcessorBench.FlowFile.Basic

/-!
# Queues of flow files

First in, first out.  The view of a queue is the list of its flow files, oldest first.
-/

namespace ProcessorBench

/-- The flow files that wait, oldest first. -/
structure Queue where
  flowFiles : List FlowFile := []
  deriving DecidableEq, Inhabited

/-- How much waits in a queue. -/
structure Queue.Size where
  objects : Nat
  bytes : Nat
  deriving DecidableEq, Repr

namespace Queue

def offer (q : Queue) (f : FlowFile) : Queue := ⟨q.flowFiles ++ [f]⟩

def offerAll (q : Queue) (fs : List FlowFile) : Queue := ⟨q.flowFiles ++ fs⟩

/-- Takes the oldest flow file, if there is one. -/
def poll (q : Queue) : Option FlowFile × Queue :=
  match q.flowFiles with
  | [] => (none, q)
  | f :: rest => (some f, ⟨rest⟩)

/-- Takes the oldest flow files, `max` of them or as many as there are. -/
def pollUpTo (q : Queue) (max : Nat) : List FlowFile × Queue :=
  (q.flowFiles.take max, ⟨q.flowFiles.drop max⟩)

def isEmpty (q : Queue) : Bool := q.flowFiles.isEmpty

def size (q : Queue) : Size where
  objects := q.flowFiles.length
  bytes := q.flowFiles.foldr (fun f n => f.size + n) 0

end Queue

end ProcessorBench
