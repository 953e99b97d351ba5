import ProcessorBench.Bench.Input
import ProcessorBench.Bench.Result
import ProcessorBench.Proofs.Bench.Crew

/-!
# Every flow file is accounted for

A new bench with a managed processor is filled and run, again and again, on any number of threads.
What the engine reports of a run and what the sessions tell is the same story, in whatever turns the
triggers work and however they and the phases of the processor end.  Each flow file that was queued,
or made by a trigger that was committed, is in the queue, with a relationship or dropped.

* `Bench.Reconciled` — how a run and its sessions agree; every run does (`Bench.reconciled`).
* `Ledger` — a bench with what was queued and made since it was new.
* `Ledger.Accounted` — the counts are those of the numbers that were given out; each call keeps it.
* `Bench.runs_reconcile` — every run reconciles, and the flow files add up after every call.
-/

set_option autoImplicit false

namespace ProcessorBench

open Program (Call)

variable {υ : Type}

namespace Bench

variable {b : Bench υ} {options : RunOptions} {turns : Crew.Turns}

/-! ## One run -/

/-- The run fails before the processor is triggered: it is not admitted, it asks for no iteration,
or being scheduled is the only call to the processor, and fails. -/
def StopsEarly (b : Bench υ) (options : RunOptions) (turns : Crew.Turns) : Prop :=
  b.admitted = false ∨ options.iterations < 1 ∨
    ∃ error, b.engine.calls plant options turns b = [.fire .scheduled (.error error)]

/-- How a run and the sessions that it left agree. -/
structure Reconciled (b : Bench υ) (options : RunOptions) (turns : Crew.Turns) : Prop where
  /-- A run that fails early adds no session and takes nothing from the queue. -/
  early : b.StopsEarly options turns →
    (b.run options turns).1.isOk = false ∧ (b.run options turns).2.workspace = b.workspace
  /-- Any other run adds a session for each iteration.  Each one was settled once and holds nothing;
  as many were rolled back as iterations failed; and on one thread these are the same. -/
  late : ¬b.StopsEarly options turns → ∃ triggers unscheduled stopped,
    triggers.length = options.iterations.toNat ∧
    b.engine.calls plant options turns b =
      (if options.schedule then [.fire .scheduled (.ok ())] else []) ++
        Engine.course unscheduled triggers ++ Engine.ending options unscheduled stopped ∧
    (b.run options turns).1 = Engine.verdict options triggers unscheduled stopped ∧
    ∃ added, (b.run options turns).2.workspace.sessions = b.workspace.sessions ++ added ∧
      added.length = options.iterations.toNat ∧
      (∀ s ∈ added, s.commits + s.rollbacks = 1 ∧ s.holdings = ∅) ∧
      (added.countP fun s => s.rollbacks = 1) = (Engine.failed triggers).length ∧
      (b.engine.threads = 1 → ∀ i s, added[i]? = some s →
        (s.rollbacks = 1 ↔ ∃ error, (i, error) ∈ Engine.failed triggers))

section

variable {results : List (Except Error Unit)} {opened : List Nat} {added : List Session}

theorem Ends.of_getElem?
    (h : List.Forall₂ (fun i s => ∃ r, results[i]? = some r ∧ Ends r s) opened added) {m : Nat}
    {s : Session} (hs : added[m]? = some s) :
    ∃ i r, opened[m]? = some i ∧ results[i]? = some r ∧ Ends r s := by
  obtain ⟨hm, rfl⟩ := List.getElem?_eq_some_iff.1 hs
  have hm' : m < opened.length := h.length_eq ▸ hm
  obtain ⟨r, hr, hends⟩ := h.get hm' hm
  exact ⟨_, r, List.getElem?_eq_getElem hm', hr, hends⟩

/-- In whatever order the sessions were opened, as many were rolled back as jobs failed. -/
theorem Ends.countP_rolledBack
    (h : List.Forall₂ (fun i s => ∃ r, results[i]? = some r ∧ Ends r s) opened added)
    (hopened : opened.Perm (List.range results.length)) :
    (added.countP fun s => s.rollbacks = 1) = results.countP fun r => !r.isOk := by
  have hadded : (added.countP fun s => s.rollbacks = 1) =
      opened.countP fun i => results[i]?.any fun r => !r.isOk := by
    clear hopened
    induction h with
    | nil => rfl
    | cons hends _ ih =>
      obtain ⟨r, hr, hends⟩ := hends
      rw [List.countP_cons, List.countP_cons, ih, hr]
      congr 1
      simp [hends.rolledBack]
  have hresults : (List.range results.length).map (results[·]?) = results.map some := by
    refine List.ext_getElem (by simp) fun i hi _ => ?_
    simp
  rw [hadded, hopened.countP_eq]
  show List.countP ((Option.any fun r : Except Error Unit => !r.isOk) ∘ (results[·]?)) _ = _
  rw [← List.countP_map, hresults, List.countP_map]
  rfl

theorem Ends.rolledBack_iff_failed
    (h : List.Forall₂ (fun i s => ∃ r, results[i]? = some r ∧ Ends r s)
      (List.range results.length) added) {i : Nat} {s : Session} (hs : added[i]? = some s) :
    s.rollbacks = 1 ↔ ∃ error, (i, error) ∈ Engine.failed results := by
  obtain ⟨j, r, hj, hr, hends⟩ := Ends.of_getElem? h hs
  obtain ⟨-, rfl⟩ : i < results.length ∧ i = j := by
    simpa [List.getElem?_eq_some_iff] using hj
  simp only [Engine.mem_failed, hr, Option.some.injEq]
  refine hends.rolledBack.trans ?_
  cases r with
  | error e => exact ⟨fun _ => ⟨e, rfl⟩, fun _ => rfl⟩
  | ok _ => exact ⟨nofun, nofun⟩

end

/-- Nothing happens in a run that fails early. -/
theorem runEvents_of_stopsEarly (h : b.StopsEarly options turns) :
    b.runEvents options turns = [] := by
  unfold runEvents
  rcases h with hrefused | huntriggered
  · rw [hrefused]
    rfl
  · rw [Engine.deeds_of_untriggered huntriggered]
    exact ite_self _

/-- **Every run of a managed processor agrees with its sessions.** -/
theorem reconciled {body : Program υ} (hbody : b.processor.trigger = .managed body)
    (hunsettled : body.Unsettled) (options : RunOptions) (turns : Crew.Turns) :
    b.Reconciled options turns := by
  have hsame : b.StopsEarly options turns → (b.run options turns).2.workspace = b.workspace := by
    intro hearly
    rw [(run_events b options turns).2, runEvents_of_stopsEarly hearly]
    rfl
  cases hadmitted : b.admitted with
  | false =>
    obtain ⟨hok, -⟩ := run_of_not_admitted hadmitted options turns
    exact ⟨fun hearly => ⟨hok, hsame hearly⟩, fun hlate => absurd (.inl hadmitted) hlate⟩
  | true =>
    have houtcome := (run_of_admitted hadmitted options turns).1
    obtain ⟨hearly, -, hok⟩ | ⟨hle, hscheduled, hlength, unscheduled, stopped, hcalls, hverdict, -⟩
      := Engine.run_results b.engine plant options turns b
    · exact ⟨fun h => ⟨houtcome ▸ hok, hsame h⟩, fun hlate => absurd (.inr hearly) hlate⟩
    · refine ⟨?_, fun _ => ?_⟩
      · rintro (hrefused | hlt | hfailed)
        · rw [hadmitted] at hrefused
          cases hrefused
        · omega
        · exact absurd hfailed hscheduled
      · obtain ⟨opened, added, hperm, hinTurn, hadded, hends⟩ :=
          run_managed hbody hunsettled hadmitted hle hlength
        refine ⟨_, unscheduled, stopped, hlength, hcalls, ?_, added, hadded, ?_, fun s hs => ?_, ?_,
          fun hone i s hs => ?_⟩
        · rw [houtcome, hverdict]
        · rw [← hends.length_eq, hperm.length_eq, List.length_range]
        · obtain ⟨m, hm⟩ := List.mem_iff_getElem?.1 hs
          obtain ⟨i, r, -, -, hended⟩ := Ends.of_getElem? hends hm
          exact ⟨hended.settled, hended.idle⟩
        · rw [Engine.length_failed]
          exact Ends.countP_rolledBack hends (hlength ▸ hperm)
        · rw [hinTurn hone, ← hlength] at hends
          exact Ends.rolledBack_iff_failed hends hs

/-- A run leaves the sessions alone that there were, and ends those that it adds. -/
theorem Reconciled.sessions (h : b.Reconciled options turns) :
    let w := (b.run options turns).2.workspace
    b.workspace.sessions.length ≤ w.sessions.length ∧
      (∀ n < b.workspace.sessions.length, w.session n = b.workspace.session n) ∧
      ∀ n ≥ b.workspace.sessions.length, n < w.sessions.length →
        (w.session n).commits + (w.session n).rollbacks = 1 ∧ (w.session n).holdings = ∅ := by
  intro w
  obtain ⟨added, hadded, hended⟩ : ∃ added, w.sessions = b.workspace.sessions ++ added ∧
      ∀ s ∈ added, s.commits + s.rollbacks = 1 ∧ s.holdings = ∅ := by
    by_cases hearly : b.StopsEarly options turns
    · refine ⟨[], ?_, nofun⟩
      rw [List.append_nil]
      exact congrArg Workspace.sessions (h.early hearly).2
    · obtain ⟨-, -, -, -, -, -, added, hadded, -, hended, -⟩ := h.late hearly
      exact ⟨added, hadded, hended⟩
  refine ⟨?_, fun n hn => ?_, fun n hn hlt => hended _ ?_⟩
  · rw [hadded, List.length_append]
    exact Nat.le_add_right _ _
  · unfold Workspace.session
    rw [hadded, List.getElem?_append_left hn]
  · rw [hadded, List.length_append] at hlt
    unfold Workspace.session
    rw [hadded, List.getElem?_append_right hn, List.getElem?_eq_getElem (by omega)]
    exact List.getElem_mem _

/-! ## All calls -/

/-- To queue a content, in one of the forms that it can have, or to run the processor, whose triggers
then have these turns. -/
inductive Call where
  | enqueueBytes (bytes : List UInt8) (attributes : Attributes)
  | enqueueText (text : Text) (attributes : Attributes)
  | enqueueStream (stream : Stream) (attributes : Attributes)
  | enqueueFile (file : File) (attributes : Attributes)
  | run (options : RunOptions) (turns : Crew.Turns)

end Bench

/-- How many flow files the calls made for sessions that were committed. -/
def Workspace.madeForGood (w : Workspace) (calls : List (Nat × Call)) : Nat :=
  ∑ n ∈ Finset.range w.sessions.length,
    if (w.session n).commits = 1 then ((callsTo n calls).flatMap Call.made).length else 0

/-- A bench, with what was counted since it was new. -/
structure Ledger (υ : Type) where
  bench : Bench υ
  /-- How many flow files were queued. -/
  enqueued : Nat := 0
  /-- How many flow files were made by triggers that were committed. -/
  committed : Nat := 0
  /-- How many flow files were made at all, also by triggers that were rolled back. -/
  issued : Nat := 0

namespace Ledger

/-- Takes in how a content was queued. -/
def enqueue (l : Ledger υ) (r : Except Error FlowFile × Bench υ) : Ledger υ :=
  let n := if r.1.isOk then 1 else 0
  { l with bench := r.2, enqueued := l.enqueued + n, issued := l.issued + n }

def step (l : Ledger υ) : Bench.Call → Ledger υ
  | .enqueueBytes bytes attributes => l.enqueue (l.bench.enqueueBytes bytes attributes)
  | .enqueueText text attributes => l.enqueue (l.bench.enqueueText text attributes)
  | .enqueueStream stream attributes => l.enqueue (l.bench.enqueueStream stream attributes)
  | .enqueueFile file attributes => l.enqueue (l.bench.enqueueFile file attributes)
  | .run options turns =>
    let bench := (l.bench.run options turns).2
    let calls := l.bench.workspace.calls (l.bench.runEvents options turns)
    { l with
      bench
      committed := l.committed + bench.workspace.madeForGood calls
      issued := l.issued + (calls.flatMap fun call => Call.made call.2).length }

/-- The ledger after these calls to a bench. -/
def after (b : Bench υ) (calls : List Bench.Call) : Ledger υ := calls.foldl step { bench := b }

/-- What came in is in the queue, with the relationships, or dropped. -/
def Balanced (l : Ledger υ) : Prop :=
  ∀ relationships : Finset Text, (∀ name ∈ l.bench.pool.relationships, name ∈ relationships) →
    l.enqueued + l.committed = l.bench.queueSize.objects +
      (∑ relationship ∈ relationships, (l.bench.routedTo relationship).length) +
      l.bench.removedCount

/-- The processor is the same, all sessions have ended, and the counts are those of the numbers that
were given out.  As long as no number was given out twice, the workspace is in order. -/
structure Accounted (p : Processor υ) (first : UInt64) (l : Ledger υ) (c : Custody) : Prop where
  processor : l.bench.processor = p
  workspace : c.workspace = l.bench.workspace
  remembered : c.workspace.forgotten = 0
  settled : c.Settled
  enqueued : (c.issuedTo none).length = l.enqueued
  issued : c.issued.length = l.issued
  inOrder : l.issued ≤ UInt64.size → c.InOrder first
  committed : l.issued ≤ UInt64.size → c.madeForGood = l.committed

variable {p : Processor υ} {first : UInt64} {l : Ledger υ} {c : Custody}

theorem Accounted.start {b : Bench υ} (h : b.New) :
    Accounted b.processor b.pool.supply.nextId { bench := b } { workspace := b.workspace } where
  processor := rfl
  workspace := rfl
  remembered := h.remembered
  settled := by
    refine ⟨fun n hn => ?_, fun n => ?_⟩
    · change n < b.workspace.sessions.length at hn
      rw [h.sessions] at hn
      cases hn
    · show (b.workspace.session n).holdings = ∅
      unfold Workspace.session
      rw [h.sessions]
      rfl
  enqueued := rfl
  issued := rfl
  inOrder _ := .initial h.queue h.sessions
  committed _ := by
    show (∑ n ∈ Finset.range b.workspace.sessions.length, _) = 0
    rw [h.sessions]
    rfl

/-- A content more is a number more that was given out for no session. -/
theorem Accounted.enqueueBytes (h : l.Accounted p first c) (bytes : List UInt8)
    (attributes : Attributes) :
    (l.enqueue (l.bench.enqueueBytes bytes attributes)).Accounted p first
      (c.step (.enqueue bytes attributes)) := by
  obtain ⟨hok, hprocessor⟩ : (l.bench.enqueueBytes bytes attributes).1.isOk = true ∧
      (l.bench.enqueueBytes bytes attributes).2.processor = l.bench.processor := by
    obtain ⟨f, supply, hmake, -⟩ := Bench.makeFlowFile_spec l.bench.pool.supply bytes attributes
    rw [Bench.enqueueBytes_eq hmake]
    exact ⟨rfl, rfl⟩
  obtain ⟨hsessions, hforgotten⟩ := c.workspace.sessions_enqueueBytes bytes attributes
  have hsession (n : Nat) : (c.workspace.enqueueBytes bytes attributes).session n =
      c.workspace.session n := by
    unfold Workspace.session
    rw [hsessions]
  have hnone : (c.step (.enqueue bytes attributes)).issuedTo none =
      c.issuedTo none ++ [c.workspace.pool.supply.nextId] := by
    simp [Custody.step_enqueue, Custody.issuedTo]
  have hsome (n : Nat) : (c.step (.enqueue bytes attributes)).issuedTo (some n) =
      c.issuedTo (some n) := by
    simp [Custody.step_enqueue, Custody.issuedTo]
  have hcount : (c.step (.enqueue bytes attributes)).issued.length = l.issued + 1 := by
    rw [Custody.step_enqueue, ← h.issued]
    exact List.length_append
  have hworkspace : (c.step (.enqueue bytes attributes)).workspace =
      c.workspace.enqueueBytes bytes attributes := rfl
  unfold enqueue
  rw [hok, if_pos rfl]
  refine ⟨hprocessor.trans h.processor, ?_, hforgotten.trans h.remembered, ⟨fun n hn => ?_,
    fun n => ?_⟩, ?_, hcount, fun hle => ?_, fun hle => ?_⟩
  · rw [hworkspace, h.workspace, ← Bench.enqueueBytes_workspace]
  · rw [hworkspace, hsession]
    rw [hworkspace, hsessions] at hn
    exact h.settled.ended n hn
  · rw [hworkspace, hsession]
    exact h.settled.idle n
  · rw [hnone, List.length_append, h.enqueued]
    rfl
  · exact (h.inOrder (Nat.le_of_succ_le hle)).enqueue bytes attributes (hcount ▸ hle)
  · unfold Custody.madeForGood
    rw [hworkspace, hsessions]
    simp only [hsession, hsome]
    exact h.committed (Nat.le_of_succ_le hle)

/-- A run ends the sessions that it opens, and leaves the others alone. -/
theorem Accounted.run {body : Program υ} (hbody : p.trigger = .managed body)
    (hunsettled : body.Unsettled) (h : l.Accounted p first c) (options : RunOptions)
    (turns : Crew.Turns) :
    (l.step (.run options turns)).Accounted p first
      ((l.bench.runEvents options turns).foldl Custody.step c) := by
  have hmanaged : l.bench.processor.trigger = .managed body := by rw [h.processor, hbody]
  obtain ⟨hprocessor, hworkspace⟩ := Bench.run_events l.bench options turns
  obtain ⟨hmore, hold, hnew⟩ := (Bench.reconciled hmanaged hunsettled options turns).sessions
  have hdue := Bench.allDue_runEvents hmanaged hunsettled options turns
  have hevents : ∀ e ∈ l.bench.runEvents options turns, ∀ bytes attributes,
      e ≠ .enqueue bytes attributes := fun _ he => Bench.not_enqueue_of_mem_runEvents he
  have hthere : ((l.bench.runEvents options turns).foldl Custody.step c).workspace =
      (l.bench.run options turns).2.workspace := by
    rw [Custody.workspace_foldl, h.workspace, hworkspace]
  have hcount : ((l.bench.runEvents options turns).foldl Custody.step c).issued.length =
      (l.step (.run options turns)).issued := by
    rw [Custody.issued_foldl c hevents, List.length_append, h.issued, h.workspace]
    simp [step, List.length_flatMap]
  have hin (hle : (l.step (.run options turns)).issued ≤ UInt64.size) : l.issued ≤ UInt64.size :=
    Nat.le_of_add_right_le hle
  refine ⟨hprocessor.trans h.processor, hthere, ?_, ⟨fun n hn => ?_, fun n => ?_⟩, ?_, hcount,
    fun hle => ?_, fun hle => ?_⟩
  · rw [Custody.workspace_foldl, Workspace.forgotten_foldl, h.remembered]
  · rw [hthere] at hn ⊢
    rcases Nat.lt_or_ge n l.bench.workspace.sessions.length with hlt | hge
    · rw [hold n hlt, ← h.workspace]
      exact h.settled.ended n (h.workspace ▸ hlt)
    · exact (hnew n hge hn).1
  · rw [hthere]
    rcases Nat.lt_or_ge n l.bench.workspace.sessions.length with hlt | hge
    · rw [hold n hlt, ← h.workspace]
      exact h.settled.idle n
    · by_cases hn : n < (l.bench.run options turns).2.workspace.sessions.length
      · exact (hnew n hge hn).2
      · unfold Workspace.session
        rw [List.getElem?_eq_none (Nat.le_of_not_lt hn)]
        rfl
  · rw [Custody.issuedTo_none_foldl c hevents]
    exact h.enqueued
  · exact (h.inOrder (hin hle)).foldl (h.workspace ▸ hdue) (hcount ▸ hle)
  · unfold Custody.madeForGood
    rw [hthere]
    simp only [Custody.issuedTo_foldl c hevents, List.length_append, List.length_map]
    show _ = l.committed + Workspace.madeForGood _ _
    rw [← h.committed (hin hle), ← (h.inOrder (hin hle)).madeForGood_of_more (h.workspace ▸ hmore)
      (h.workspace ▸ hold)]
    unfold Workspace.madeForGood
    rw [← h.workspace, ← Finset.sum_add_distrib]
    exact Finset.sum_congr rfl fun n _ => by split <;> rfl

/-- **Every call keeps the account.** -/
theorem Accounted.step {body : Program υ} (hbody : p.trigger = .managed body)
    (hunsettled : body.Unsettled) (h : l.Accounted p first c) (call : Bench.Call) :
    ∃ c', (l.step call).Accounted p first c' := by
  cases call with
  | enqueueBytes bytes attributes => exact ⟨_, h.enqueueBytes bytes attributes⟩
  | enqueueText text attributes => exact ⟨_, h.enqueueBytes text attributes⟩
  | enqueueStream stream attributes =>
    cases stream with
    | broken => exact ⟨c, h⟩
    | readable bytes => exact ⟨_, h.enqueueBytes bytes attributes⟩
  | enqueueFile file attributes =>
    cases file with
    | missing path => exact ⟨c, h⟩
    | present name bytes => exact ⟨_, h.enqueueBytes bytes _⟩
  | run options turns => exact ⟨_, h.run hbody hunsettled options turns⟩

theorem Accounted.after {b : Bench υ} {body : Program υ} (h : b.New)
    (hbody : b.processor.trigger = .managed body) (hunsettled : body.Unsettled)
    (calls : List Bench.Call) :
    ∃ c, (Ledger.after b calls).Accounted b.processor b.pool.supply.nextId c := by
  unfold Ledger.after
  induction calls using List.reverseRecOn with
  | nil => exact ⟨_, .start h⟩
  | append_singleton calls call ih =>
    obtain ⟨c, hc⟩ := ih
    rw [List.foldl_append]
    exact hc.step hbody hunsettled call

theorem Accounted.balanced (h : l.Accounted p first c) (hissued : l.issued ≤ UInt64.size) :
    l.Balanced := by
  intro relationships hall
  have hbalance := (h.inOrder hissued).balance (h.issued ▸ hissued) h.settled h.remembered
    relationships (h.workspace ▸ hall)
  rw [h.committed hissued, h.enqueued, h.workspace] at hbalance
  exact hbalance

end Ledger

namespace Bench

/-- **Runs, sessions and flow files reconcile.**  Whatever was queued before and however the runs
before ended, a run of a new bench with a managed processor reconciles with its sessions, on any
number of threads and in whatever turns they work; and as long as no more than `2 ^ 64` numbers are
given out, each flow file that was queued, or made by a trigger that was committed, is in the queue,
with a relationship or dropped. -/
theorem runs_reconcile {b : Bench υ} (hnew : b.New) {body : Program υ}
    (hbody : b.processor.trigger = .managed body) (hunsettled : body.Unsettled)
    (calls : List Call) :
    (∀ options turns, (Ledger.after b calls).bench.Reconciled options turns) ∧
      ((Ledger.after b calls).issued ≤ UInt64.size → (Ledger.after b calls).Balanced) := by
  obtain ⟨c, haccounted⟩ := Ledger.Accounted.after hnew hbody hunsettled calls
  refine ⟨fun options turns => reconciled ?_ hunsettled options turns, haccounted.balanced⟩
  rw [haccounted.processor]
  exact hbody

/-- Two triggers take a flow file each, send it on, make one and drop it.  The one that comes first to
the state of the processor then fails, and its session is rolled back; the other one succeeds.  Of
two threads the one at the second trigger is faster. -/
theorem runs_reconcile_of_one_failure :
    ∃ (b : Bench Nat) (turns : Crew.Turns), b.New ∧
      let l := Ledger.after b [.enqueueBytes [104, 105] ∅, .enqueueBytes [33] ∅,
        .run { iterations := 2 } turns]
      l.enqueued = 2 ∧ l.committed = 1 ∧ l.issued = 4 ∧ l.bench.queueSize.objects = 1 ∧
        l.bench.removedCount = 1 ∧ (l.bench.routedTo "done").length = 1 ∧
        l.bench.workspace.sessions.map (·.rollbacks) = [1, 0] ∧
        ∀ turns, l.bench.Reconciled {} turns := by
  let done : Text := "done"
  let files (r : Except Error Answer) : List FlowFile := (r.toOption.map Answer.files).getD []
  let body : Program Nat :=
    .perform (.pollUpTo 1) fun r => .perform (.routeAll (files r) done) fun _ =>
      .perform .create fun r => .perform (.drop ((files r).headD default)) fun _ =>
        .touch (· + 1) fun n => .finish (if n = 0 then .error .foreign else .ok ())
  let component : Component (Context.signature Nat) Nat := { typeName := "Sender" }
  let b : Bench Nat :=
    { processor := { component, trigger := .managed body }, target := ⟨some component⟩
      engine := { threads := 2 }, context := { identifier := "p", processor := {} }
      workspace := { pool := { relationships := [done] } }, world := { user := 0 } }
  let turns : Crew.Turns := fun i => if i = 0 then [0, 1, 1, 0, 1, 0, 1, 1, 1, 1] else []
  have hnew : b.New := ⟨rfl, rfl, rfl⟩
  have hunsettled : body.Unsettled :=
    .perform _ _ rfl fun _ => .perform _ _ rfl fun _ => .perform _ _ rfl fun _ =>
      .perform _ _ rfl fun _ => .touch _ _ fun _ => .finish _
  refine ⟨b, turns, hnew, ?_⟩
  intro l
  obtain ⟨hreconciled, hbalanced⟩ :
      (∀ options turns, l.bench.Reconciled options turns) ∧
        (l.issued ≤ UInt64.size → l.Balanced) :=
    runs_reconcile hnew rfl hunsettled [.enqueueBytes [104, 105] ∅, .enqueueBytes [33] ∅,
      .run { iterations := 2 } turns]
  have henqueued : l.enqueued = 2 := by decide +kernel
  have hcommitted : l.committed = 1 := by decide +kernel
  have hissued : l.issued = 4 := by decide +kernel
  have hqueue : l.bench.queueSize.objects = 1 := by decide +kernel
  have hremoved : l.bench.removedCount = 1 := by decide +kernel
  have hrollbacks : l.bench.workspace.sessions.map (·.rollbacks) = [1, 0] := by decide +kernel
  have hrelationships : l.bench.pool.relationships = [done] := by decide +kernel
  have hsum : l.enqueued + l.committed = l.bench.queueSize.objects +
      (∑ relationship ∈ {done}, (l.bench.routedTo relationship).length) + l.bench.removedCount := by
    refine hbalanced ?_ {done} ?_
    · rw [hissued]
      decide
    · rw [hrelationships]
      simp
  rw [henqueued, hcommitted, hqueue, hremoved, Finset.sum_singleton] at hsum
  have hrouted : (l.bench.routedTo done).length = 1 := by omega
  exact ⟨henqueued, hcommitted, hissued, hqueue, hremoved, hrouted, hrollbacks, hreconciled {}⟩

end Bench

end ProcessorBench
