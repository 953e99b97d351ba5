import Mathlib.Algebra.Ring.Nat
import ProcessorBench.Session.Edit

/-!
# One by one, or several at once

A queue gives out what was put into it, in the order in which it came, however it is used.  Flow
files can be put in and taken out one by one or several at once.  Whoever takes several gets what so
many single calls would have answered, and leaves what they would have left; so it is with a queue,
and with a session that takes from one, whatever it holds already.

* `callTimes`, `eq_callTimes` — so many calls in a row, and when something else does the same.
* `Queue.polled_append_waiting` — what was taken and then what waits is what was put in.
* `Queue.pollUpTo_eq_callTimes`, `Scope.pollUpTo_eq_callTimes` — several at once are so many calls.
* `Scope.batches_agree` — all of it.
-/

set_option autoImplicit false

namespace ProcessorBench

/-! ## Calls in a row -/

section

variable {σ α : Type} {call : σ → Option α × σ}

/-- What so many calls answer, without the empty answers, and what they leave behind. -/
def callTimes (call : σ → Option α × σ) : Nat → σ → List α × σ
  | 0, s => ([], s)
  | n + 1, s =>
    let (a?, s) := call s
    let (rest, s) := callTimes call n s
    (a?.toList ++ rest, s)

/-- What does nothing for no call, and one call more each time, does what so many calls do. -/
theorem eq_callTimes (batch : Nat → σ → List α × σ) (hzero : ∀ s, batch 0 s = ([], s))
    (hsucc : ∀ n s, batch (n + 1) s =
      ((call s).1.toList ++ (batch n (call s).2).1, (batch n (call s).2).2))
    (n : Nat) (s : σ) : batch n s = callTimes call n s := by
  induction n generalizing s with
  | zero => exact hzero s
  | succ n ih =>
    rw [hsucc, ih (call s).2]
    rfl

end

namespace Queue

/-! ## A queue in use -/

/-- One call on a queue. -/
inductive Use where
  | offer (f : FlowFile)
  | offerAll (fs : List FlowFile)
  | poll
  | pollUpTo (max : Nat)

/-- The flow files that a call puts in. -/
def Use.offers : Use → List FlowFile
  | offer f => [f]
  | offerAll fs => fs
  | poll | pollUpTo _ => []

/-- The flow files that a call answers, and the queue that it leaves. -/
def use (q : Queue) : Use → List FlowFile × Queue
  | .offer f => ([], q.offer f)
  | .offerAll fs => ([], q.offerAll fs)
  | .poll => (q.poll.1.toList, q.poll.2)
  | .pollUpTo max => q.pollUpTo max

/-- The queue after a row of calls. -/
def after (q : Queue) (uses : List Use) : Queue := uses.foldl (fun q u => (q.use u).2) q

/-- All flow files that a row of calls takes out, in the order in which they are answered. -/
def polled (q : Queue) : List Use → List FlowFile
  | [] => []
  | u :: rest => (q.use u).1 ++ (q.use u).2.polled rest

/-- All flow files that a row of calls puts in. -/
def offered (uses : List Use) : List FlowFile := uses.flatMap Use.offers

/-- One call answers the oldest flow files and appends what it puts in. -/
theorem use_keeps_order (q : Queue) (u : Use) :
    (q.use u).1 ++ (q.use u).2.flowFiles = q.flowFiles ++ u.offers := by
  obtain ⟨fs⟩ := q
  cases u with
  | offer f => rfl
  | offerAll gs => rfl
  | poll => cases fs <;> simp [use, poll, Use.offers]
  | pollUpTo max => simp [use, pollUpTo, Use.offers]

/-- **First in, first out.**  What was taken out, and then what waits, is what waited at first and
then what was put in. -/
theorem polled_append_waiting (q : Queue) (uses : List Use) :
    q.polled uses ++ (q.after uses).flowFiles = q.flowFiles ++ offered uses := by
  induction uses generalizing q with
  | nil => simp [polled, after, offered]
  | cons u rest ih =>
    have hrest : (q.use u).2.polled rest ++ (q.after (u :: rest)).flowFiles =
        (q.use u).2.flowFiles ++ offered rest := ih (q.use u).2
    calc q.polled (u :: rest) ++ (q.after (u :: rest)).flowFiles
        = (q.use u).1 ++ ((q.use u).2.polled rest ++ (q.after (u :: rest)).flowFiles) := by
          rw [polled, List.append_assoc]
      _ = ((q.use u).1 ++ (q.use u).2.flowFiles) ++ offered rest := by
          rw [hrest, List.append_assoc]
      _ = q.flowFiles ++ offered (u :: rest) := by
          rw [use_keeps_order, List.append_assoc, offered, offered, List.flatMap_cons]

/-- The size of a queue counts the flow files that wait, and all bytes of their contents. -/
theorem size_eq (q : Queue) :
    q.size = ⟨q.flowFiles.length, (q.flowFiles.map FlowFile.size).sum⟩ := by
  unfold size
  rw [List.sum, List.foldr_map]

theorem poll_eq_none_iff (q : Queue) : q.poll.1 = none ↔ q.flowFiles = [] := by
  obtain ⟨fs⟩ := q
  cases fs <;> simp [poll]

/-- Taking several flow files at once is taking them one by one. -/
theorem pollUpTo_eq_callTimes (q : Queue) (max : Nat) : q.pollUpTo max = callTimes poll max q := by
  refine eq_callTimes (fun max q => q.pollUpTo max) (fun q => rfl) (fun max q => ?_) max q
  obtain ⟨fs⟩ := q
  cases fs <;> simp [pollUpTo, poll]

end Queue

namespace Scope

/-- A session that takes several flow files at once holds what it would hold had it taken them one
by one, also if some of them have a number that it holds already. -/
theorem pollUpTo_eq_callTimes (s : Scope) (max : Nat) : s.pollUpTo max = callTimes poll max s := by
  refine eq_callTimes (fun max s => s.pollUpTo max) (fun s => rfl) (fun max s => ?_) max s
  obtain ⟨session, supply, relationships, ⟨fs⟩, counters, provenance⟩ := s
  cases fs with
  | nil => simp [pollUpTo, poll, Pool.pollUpTo, Pool.poll, Queue.pollUpTo, Queue.poll]
  | cons f rest => simp [pollUpTo, poll, Pool.pollUpTo, Pool.poll, Queue.pollUpTo, Queue.poll]

/-- **A queue is first in, first out, and taking several flow files at once is taking them one by
one.**  After any calls on a new queue, what was taken out, and then what waits, is what was put in,
and the size counts what waits, with all its bytes; a call answers nothing only if nothing waits.
Taking up to a number of flow files answers and leaves what so many calls do that take one: on every
queue, and in every session on every pool. -/
theorem batches_agree :
    (∀ uses : List Queue.Use,
      let q := Queue.after {} uses
      Queue.polled {} uses ++ q.flowFiles = Queue.offered uses ∧
        q.size.objects + (Queue.polled {} uses).length = (Queue.offered uses).length ∧
        q.size = ⟨q.flowFiles.length, (q.flowFiles.map FlowFile.size).sum⟩ ∧
        (q.poll.1 = none ↔ q.size.objects = 0)) ∧
    (∀ (q : Queue) (max : Nat), q.pollUpTo max = callTimes Queue.poll max q) ∧
    ∀ (s : Scope) (max : Nat), s.pollUpTo max = callTimes poll max s := by
  refine ⟨fun uses => ?_, Queue.pollUpTo_eq_callTimes, pollUpTo_eq_callTimes⟩
  intro q
  have horder : Queue.polled {} uses ++ q.flowFiles = Queue.offered uses :=
    Queue.polled_append_waiting {} uses
  have hsize := q.size_eq
  refine ⟨horder, ?_, hsize, ?_⟩
  · rw [hsize, ← horder, List.length_append, Nat.add_comm]
  · rw [q.poll_eq_none_iff, hsize]
    exact List.length_eq_zero_iff.symm

end Scope

end ProcessorBench
