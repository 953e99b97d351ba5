import ProcessorBench.Proofs.Session.Settle
import ProcessorBench.Proofs.Session.Workspace
import ProcessorBench.Proofs.Bench.Input
import ProcessorBench.Proofs.FlowFile.Supply

/-!
# Where flow files are

Sessions of one workspace take flow files from a common queue, make new ones, and commit or roll
back in any order.  `Custody` follows the numbers of the flow files: which ones were given out, and
for which session, and which ones left the workspace, because a commit gave them up or because a
rollback forgot them.

* `Custody.Accounted` — the invariant: a function tells for each number the place where it is, and
  each place holds exactly the numbers that belong there, each once.
* `Custody.Turn` — what there is to show of a step in which one session acts.
* `Custody.Accounted.turn` — such a step keeps the invariant: the other sessions have no part in it.
-/

set_option autoImplicit false

namespace ProcessorBench

namespace Workspace

/-- One thing that happens at a workspace. -/
inductive Event where
  | openSession
  | enqueue (bytes : List UInt8) (attributes : Attributes)
  | call (n : Nat) (op : Operation)

def handle (w : Workspace) : Event → Workspace
  | .openSession => w.openSession.2
  | .enqueue bytes attributes => w.enqueueBytes bytes attributes
  | .call n op => (w.perform n op).2

/-- The session that acts in the event. -/
def Event.session? : Event → Option Nat
  | .call n _ => some n
  | _ => none

/-- The event does not forget what was routed. -/
def Event.remembers : Event → Bool
  | .call _ .clearRouted => false
  | _ => true

/-- The number that the event takes from the supply, with the session that asked for it. -/
def issues (w : Workspace) (e : Event) : List (UInt64 × Option Nat) :=
  if (w.handle e).pool.supply.nextId = w.pool.supply.nextId then []
  else [(w.pool.supply.nextId, e.session?)]

/-- The numbers that an operation moves out of the workspace, each with its session. -/
def departures (w : Workspace) (e : Event) (numbers : Operation → Scope → List UInt64) :
    List (Nat × UInt64) :=
  match e with
  | .call n op =>
    match w.scope? n with
    | some s => (numbers op s).map fun id => (n, id)
    | none => []
  | _ => []

end Workspace

/-- The numbers that a commit gives up for good. -/
def Operation.drops : Operation → Scope → List UInt64
  | .commit, s =>
    if s.session.undecided?.isNone then s.session.numbers fun h => h.fate = .drop else []
  | _, _ => []

/-- The numbers that a rollback forgets: those of the flow files that the session made. -/
def Operation.discards : Operation → Scope → List UInt64
  | .rollback, s => s.session.numbers fun h => h.polled.isNone
  | _, _ => []

/-- Where a flow file can be. -/
inductive Place where
  | queue
  | held (session : Nat)
  | routed (session : Nat) (relationship : Text)
  | dropped (session : Nat)
  | discarded (session : Nat)
  deriving DecidableEq, Repr

/-- The session at which a place is, if it is at one. -/
def Place.session? : Place → Option Nat
  | .queue => none
  | .held n | .routed n _ | .dropped n | .discarded n => some n

/-- A workspace with the history of the numbers of its flow files. -/
structure Custody where
  workspace : Workspace
  /-- The numbers given out, oldest first, each with the session that asked for it, if one did. -/
  issued : List (UInt64 × Option Nat) := []
  /-- The numbers given up by commits, each with its session. -/
  dropped : List (Nat × UInt64) := []
  /-- The numbers forgotten by rollbacks, each with its session. -/
  discarded : List (Nat × UInt64) := []

namespace Custody

def step (c : Custody) (e : Workspace.Event) : Custody where
  workspace := c.workspace.handle e
  issued := c.issued ++ c.workspace.issues e
  dropped := c.dropped ++ c.workspace.departures e Operation.drops
  discarded := c.discarded ++ c.workspace.departures e Operation.discards

/-- What became of a workspace by a row of events. -/
def after (w : Workspace) (events : List Workspace.Event) : Custody :=
  events.foldl step { workspace := w }

/-- The numbers that are at a place, as often as they are there. -/
def numbersAt (c : Custody) : Place → List UInt64
  | .queue => c.workspace.pool.queue.flowFiles.map (·.id)
  | .held n => (c.workspace.session n).holdings.keys
  | .routed n relationship => ((c.workspace.session n).routedTo relationship).map (·.id)
  | .dropped n => (c.dropped.filter fun e => e.1 = n).map Prod.snd
  | .discarded n => (c.discarded.filter fun e => e.1 = n).map Prod.snd

/-- The numbers given out so far. -/
def numbers (c : Custody) : List UInt64 := c.issued.map Prod.fst

/-- The workspace after the numbered session worked. -/
def resume (c : Custody) (n : Nat) (s : Scope) : Custody :=
  { c with workspace := c.workspace.resume n s }

/-- The invariant: `place` tells where each number is, and every place holds the numbers that
belong there, each once. -/
structure Accounted (first : UInt64) (c : Custody) (place : UInt64 → Option Place) : Prop where
  located : ∀ p id, (c.numbersAt p).count id = if place id = some p then 1 else 0
  known : ∀ id, (place id).isSome ↔ id ∈ c.numbers
  made : ∀ n id h, (c.workspace.session n).holdings.get? id = some h → h.polled = none →
    (id, some n) ∈ c.issued
  discarded : ∀ n id, place id = some (.discarded n) → (id, some n) ∈ c.issued
  keyed : ∀ n, (c.workspace.session n).Keyed
  numbered : c.numbers = (List.range c.issued.length).map fun i => first + .ofNat i
  next : c.workspace.pool.supply.nextId = first + .ofNat c.issued.length
  removed : ∀ n, (c.workspace.session n).removedCount = (c.numbersAt (.dropped n)).length
variable {first : UInt64} {c : Custody} {place : UInt64 → Option Place}

theorem Accounted.held (hc : Accounted first c place) (n : Nat) (id : UInt64) :
    ((c.workspace.session n).holdings.get? id).isSome ↔ place id = some (.held n) := by
  have h := hc.located (.held n) id
  have hk := (c.workspace.session n).holdings.count_keys id
  simp only [numbersAt] at h
  rw [h] at hk
  by_cases hp : place id = some (.held n)
  · rw [if_pos hp] at hk
    by_cases hg : ((c.workspace.session n).holdings.get? id).isSome = true
    · exact ⟨fun _ => hp, fun _ => hg⟩
    · rw [if_neg hg] at hk
      omega
  · rw [if_neg hp] at hk
    by_cases hg : ((c.workspace.session n).holdings.get? id).isSome = true
    · rw [if_pos hg] at hk
      omega
    · exact ⟨fun h => absurd h hg, fun h => absurd h hp⟩

/-- The next number was not given out yet. -/
theorem Accounted.fresh (hc : Accounted first c place) (hlt : c.issued.length < UInt64.size) :
    place c.workspace.pool.supply.nextId = none := by
  have hnot : c.workspace.pool.supply.nextId ∉ c.numbers := by
    rw [hc.next, hc.numbered, List.mem_map]
    rintro ⟨i, hi, heq⟩
    rw [List.mem_range] at hi
    exact absurd (Supply.offset_inj (Nat.lt_trans hi hlt) hlt heq) (Nat.ne_of_lt hi)
  rw [← hc.known] at hnot
  simpa using hnot

/-- The invariant of the numbering, after one more number. -/
theorem numbered_append {issued : List (UInt64 × Option Nat)}
    (h : issued.map Prod.fst = (List.range issued.length).map fun i => first + .ofNat i)
    (n : Option Nat) :
    (issued ++ [(first + .ofNat issued.length, n)]).map Prod.fst =
      (List.range (issued ++ [(first + .ofNat issued.length, n)]).length).map
        fun i => first + .ofNat i := by
  rw [List.map_append, h, List.length_append, List.length_singleton, List.range_succ,
    List.map_append]
  rfl

/-! ## Steps in which one session acts -/

/-- What there is to show of a step in which only the numbered session acts: where the flow files
are that were in the queue or at that session. -/
structure Turn (first : UInt64) (c c' : Custody) (n : Nat) (s : Scope)
    (place place' : UInt64 → Option Place) : Prop where
  workspace : c'.workspace = c.workspace.resume n s
  dropped_ne : ∀ m, m ≠ n → c'.numbersAt (.dropped m) = c.numbersAt (.dropped m)
  discarded_ne : ∀ m, m ≠ n → c'.numbersAt (.discarded m) = c.numbersAt (.discarded m)
  place_ne : ∀ p id, p ≠ .queue → p.session? ≠ some n → (place' id = some p ↔ place id = some p)
  queue : ∀ id, (s.pool.queue.flowFiles.map (·.id)).count id =
    if place' id = some .queue then 1 else 0
  held : ∀ id, (s.session.holdings.get? id).isSome ↔ place' id = some (.held n)
  routed : ∀ relationship id, ((s.session.routedTo relationship).map (·.id)).count id =
    if place' id = some (.routed n relationship) then 1 else 0
  dropped : ∀ id, (c'.numbersAt (.dropped n)).count id =
    if place' id = some (.dropped n) then 1 else 0
  discarded : ∀ id, (c'.numbersAt (.discarded n)).count id =
    if place' id = some (.discarded n) then 1 else 0
  issued : ∀ e ∈ c.issued, e ∈ c'.issued
  known : ∀ id, (place' id).isSome ↔ id ∈ c'.numbers
  made : ∀ id h, s.session.holdings.get? id = some h → h.polled = none → (id, some n) ∈ c'.issued
  discards : ∀ id, place' id = some (.discarded n) → (id, some n) ∈ c'.issued
  keyed : s.session.Keyed
  numbered : c'.numbers = (List.range c'.issued.length).map fun i => first + .ofNat i
  next : s.pool.supply.nextId = first + .ofNat c'.issued.length
  removed : s.session.removedCount = (c'.numbersAt (.dropped n)).length

section Turn

variable {c' : Custody} {n : Nat} {s : Scope} {place' : UInt64 → Option Place}

theorem Turn.session (ht : Turn first c c' n s place place') (hn : n < c.workspace.sessions.length)
    (m : Nat) : c'.workspace.session m = if m = n then s.session else c.workspace.session m := by
  rw [ht.workspace]
  exact Workspace.session_resume hn s m

theorem Turn.pool (ht : Turn first c c' n s place place') : c'.workspace.pool = s.pool := by
  rw [ht.workspace]
  rfl

/-- What is at the other sessions stays there. -/
theorem Turn.numbersAt_ne (ht : Turn first c c' n s place place')
    (hn : n < c.workspace.sessions.length) {p : Place} (hp : p ≠ .queue)
    (hother : p.session? ≠ some n) : c'.numbersAt p = c.numbersAt p := by
  have hne : ∀ m, p.session? = some m → m ≠ n := by
    rintro m hm rfl
    exact hother hm
  cases p with
  | queue => exact absurd rfl hp
  | held m => simp only [numbersAt, ht.session hn, if_neg (hne m rfl)]
  | routed m relationship => simp only [numbersAt, ht.session hn, if_neg (hne m rfl)]
  | dropped m => exact ht.dropped_ne m (hne m rfl)
  | discarded m => exact ht.discarded_ne m (hne m rfl)

theorem Turn.located (ht : Turn first c c' n s place place')
    (hc : Accounted first c place) (hn : n < c.workspace.sessions.length) (p : Place)
    (id : UInt64) : (c'.numbersAt p).count id = if place' id = some p then 1 else 0 := by
  by_cases hq : p = .queue
  · subst hq
    simp only [numbersAt, ht.pool]
    exact ht.queue id
  · by_cases hsession : p.session? = some n
    · have hself : c'.workspace.session n = s.session := by rw [ht.session hn, if_pos rfl]
      cases p with
      | queue => exact absurd rfl hq
      | held m =>
        obtain rfl : m = n := Option.some.inj hsession
        simp only [numbersAt, Table.count_keys, hself, ht.held]
      | routed m relationship =>
        obtain rfl : m = n := Option.some.inj hsession
        simp only [numbersAt, hself]
        exact ht.routed relationship id
      | dropped m =>
        obtain rfl : m = n := Option.some.inj hsession
        exact ht.dropped id
      | discarded m =>
        obtain rfl : m = n := Option.some.inj hsession
        exact ht.discarded id
    · rw [ht.numbersAt_ne hn hq hsession, hc.located]
      simp only [ht.place_ne p id hq hsession]

/-- **Whatever one session does, the other sessions keep what they have.** -/
theorem Accounted.turn (hc : Accounted first c place) (hn : n < c.workspace.sessions.length)
    (ht : Turn first c c' n s place place') : Accounted first c' place' := by
  have hsession := ht.session hn
  constructor
  · exact ht.located hc hn
  · exact ht.known
  · intro m id h hg hp
    rw [hsession] at hg
    by_cases hm : m = n
    · subst hm
      rw [if_pos rfl] at hg
      exact ht.made id h hg hp
    · rw [if_neg hm] at hg
      exact ht.issued _ (hc.made m id h hg hp)
  · intro m id hp
    by_cases hm : m = n
    · subst hm
      exact ht.discards id hp
    · have hne := ht.place_ne (.discarded m) id (by simp) (by simpa [Place.session?] using hm)
      exact ht.issued _ (hc.discarded m id (hne.1 hp))
  · intro m
    rw [hsession]
    split
    · exact ht.keyed
    · exact hc.keyed m
  · exact ht.numbered
  · rw [ht.pool]
    exact ht.next
  · intro m
    rw [hsession]
    by_cases hm : m = n
    · subst hm
      rw [if_pos rfl]
      exact ht.removed
    · rw [if_neg hm, ht.dropped_ne m hm]
      exact hc.removed m

end Turn

/-- The invariant, seen from a session. -/
theorem Accounted.still {n : Nat} {s : Scope} (hc : Accounted first c place)
    (hs : c.workspace.scope? n = some s) :
    Turn first c c n s place place := by
  obtain ⟨-, hsession, hpool⟩ := Workspace.scope?_eq_some hs
  constructor
  · exact (Workspace.resume_self hs).symm
  · exact fun _ _ => rfl
  · exact fun _ _ => rfl
  · exact fun _ _ _ _ => Iff.rfl
  · rw [hpool]
    exact hc.located .queue
  · rw [hsession]
    exact hc.held n
  · rw [hsession]
    exact fun relationship => hc.located (.routed n relationship)
  · exact hc.located (.dropped n)
  · exact hc.located (.discarded n)
  · exact fun _ he => he
  · exact hc.known
  · rw [hsession]
    exact hc.made n
  · exact hc.discarded n
  · rw [hsession]
    exact hc.keyed n
  · exact hc.numbered
  · rw [hpool]
    exact hc.next
  · rw [hsession]
    exact hc.removed n


end Custody

end ProcessorBench
