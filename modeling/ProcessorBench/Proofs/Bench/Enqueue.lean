import ProcessorBench.Proofs.Bench.Use

/-!
# What enqueueing a content does

A content comes as bytes, as a text or from a stream.  The flow file is made in a session on a pool
of its own, and what the bench shares with that pool is the supply, so enqueueing moves the supply,
appends to the queue, and leaves the rest of the bench alone.

* `Bench.Enqueues` — what becomes of a bench, and which flow file the caller gets.
* `Bench.Enqueues.alike` — what the flow file owes to the generators of identifiers and the clock.
* `Bench.enqueue_appends_exactly` — all forms of enqueueing do this, on every bench.
-/

set_option autoImplicit false

namespace ProcessorBench

variable {υ : Type}

/-! ## Characters -/

namespace Text

/-- The characters that texts and streams hold: signed, so that bytes above `0x7f` are negative. -/
def characters (bytes : List UInt8) : List Int8 := bytes.map UInt8.toInt8

/-- The bytes that characters stand for. -/
def ofCharacters (characters : List Int8) : Text := characters.map Int8.toUInt8

/-- **Characters keep every byte.** -/
@[simp] theorem ofCharacters_characters (bytes : List UInt8) :
    ofCharacters (characters bytes) = bytes := by
  unfold ofCharacters characters
  rw [List.map_map]
  exact List.map_id'' UInt8.toUInt8_toInt8 bytes

end Text

/-! ## Queues and attributes -/

theorem Queue.size_offer (q : Queue) (f : FlowFile) :
    (q.offer f).size = ⟨q.size.objects + 1, q.size.bytes + f.size⟩ := by
  obtain ⟨fs⟩ := q
  have hbytes : (fs ++ [f]).foldr (fun f n => f.size + n) 0 =
      fs.foldr (fun f n => f.size + n) 0 + f.size := by
    induction fs with
    | nil => exact Nat.add_comm f.size 0
    | cons g rest ih => rw [List.cons_append, List.foldr_cons, ih, List.foldr_cons, Nat.add_assoc]
  unfold offer size
  rw [hbytes, List.length_append, List.length_singleton]

theorem Scope.get?_coreAttributes (id : UInt64) (uuid key : Text) :
    (coreAttributes id uuid).get? key =
      if key = Attributes.filename then some (Text.decimal id.toNat)
      else if key = Attributes.path then some "target"
      else if key = Attributes.uuid then some uuid else none := by
  have hfilename : Attributes.filename ≠ Attributes.path ∧ Attributes.filename ≠ Attributes.uuid :=
    by decide
  have hpath : Attributes.path ≠ Attributes.uuid := by decide
  -- the table binds the identifier last, so it is looked up first
  simp only [coreAttributes, Table.ofList, List.foldl_cons, List.foldl_nil, Table.get?_insert,
    Table.get?_empty]
  split_ifs <;> simp_all

/-! ## Enqueueing -/

namespace Bench

/-- How a content is handed over. -/
inductive Form where
  | bytes
  | text
  | stream
  deriving DecidableEq, Repr

/-- Queues a flow file with the given content, handed over in the given form. -/
def enqueueAs (b : Bench υ) (form : Form) (bytes : List UInt8) (attributes : Attributes) :
    Except Error FlowFile × Bench υ :=
  match form with
  | .bytes => b.enqueueBytes bytes attributes
  | .text => b.enqueueText (Text.ofCharacters (Text.characters bytes)) attributes
  | .stream => b.enqueueStream (.readable (Text.ofCharacters (Text.characters bytes))) attributes

/-- The unique identifier that is drawn next. -/
def nextUuid (b : Bench υ) : Text := b.pool.supply.sources.uuid b.pool.supply.uuids

/-- Enqueueing the content on `b` gives the caller `f` and leaves `b'`. -/
structure Enqueues (b : Bench υ) (bytes : List UInt8) (attributes : Attributes) (f : FlowFile)
    (b' : Bench υ) : Prop where
  content : f.content.bytes = bytes
  id : f.id = b.pool.supply.nextId
  entryDate : f.entryDate = b.pool.supply.sources.clock b.pool.supply.readings
  given : ∀ key value, attributes.get? key = some value → f.attribute? key = some value
  core : ∀ key, attributes.get? key = none → f.attribute? key =
    if key = Attributes.filename then some (Text.decimal f.id.toNat)
    else if key = Attributes.path then some "target"
    else if key = Attributes.uuid then some b.nextUuid else none
  queue : b'.pool.queue.flowFiles = b.pool.queue.flowFiles ++ [f]
  size : b'.queueSize = ⟨b.queueSize.objects + 1, b.queueSize.bytes + bytes.length⟩
  created : b'.workspace.created = b.workspace.created
  counters : b'.counter? = b.counter?
  provenance : b'.provenance = b.provenance
  removedCount : b'.removedCount = b.removedCount
  invocations : b'.engine.invocations = b.engine.invocations
  /-- Nothing but the queue and the supply is touched. -/
  rest : ∃ supply : Supply, supply.nextId = b.pool.supply.nextId + 1 ∧
    supply.uuids = b.pool.supply.uuids + 1 ∧ supply.readings = b.pool.supply.readings + 1 ∧
    supply.sources = b.pool.supply.sources ∧
    b' = b.withPool { b.pool with supply, queue := b'.pool.queue }

/-- What the bench does with the flow file that is made. -/
theorem enqueueBytes_enqueues (b : Bench υ) (bytes : List UInt8) (attributes : Attributes) :
    ∃ f b', b.enqueueBytes bytes attributes = (.ok f, b') ∧ b.Enqueues bytes attributes f b' := by
  obtain ⟨f, supply, hmake, hmakes⟩ := makeFlowFile_spec b.pool.supply bytes attributes
  have hget (key : Text) : f.attribute? key =
      (attributes.get? key).or ((Scope.coreAttributes f.id b.nextUuid).get? key) := by
    unfold FlowFile.attribute?
    rw [hmakes.attributes, Table.get?_merge, hmakes.id]
    rfl
  refine ⟨f, _, enqueueBytes_eq hmake, ?_⟩
  refine
    { content := hmakes.content, id := hmakes.id, entryDate := hmakes.entryDate,
      given := fun key value hvalue => ?_, core := fun key hnone => ?_, queue := rfl, size := ?_,
      created := rfl, counters := rfl, provenance := rfl, removedCount := rfl, invocations := rfl,
      rest := ⟨supply, hmakes.nextId, hmakes.uuids, hmakes.readings, hmakes.sources, rfl⟩ }
  · rw [hget, hvalue, Option.some_or]
  · rw [hget, hnone, Option.none_or, Scope.get?_coreAttributes]
  · show (b.pool.queue.offer f).size = _
    rw [Queue.size_offer, ← hmakes.content]
    rfl

/-- All forms do the same. -/
theorem enqueueAs_eq (b : Bench υ) (form : Form) (bytes : List UInt8) (attributes : Attributes) :
    b.enqueueAs form bytes attributes = b.enqueueBytes bytes attributes := by
  cases form with
  | bytes => rfl
  | text | stream =>
    unfold enqueueAs
    rw [Text.ofCharacters_characters]
    rfl

/-- The flow files are alike up to what came from outside: their dates, and their identifiers unless
these were among the attributes given. -/
structure Alike (attributes : Attributes) (f g : FlowFile) : Prop where
  id : g.id = f.id
  content : g.content.bytes = f.content.bytes
  agree : ∀ key, key ≠ Attributes.uuid ∨ (attributes.get? key).isSome →
    g.attribute? key = f.attribute? key

/-- On benches that give out the same number next, whatever else is different about them, flow
files that are alike are made. -/
theorem Enqueues.alike {b b' c c' : Bench υ} {bytes : List UInt8} {attributes : Attributes}
    {f g : FlowFile} (hf : b.Enqueues bytes attributes f b') (hg : c.Enqueues bytes attributes g c')
    (hnext : c.pool.supply.nextId = b.pool.supply.nextId) : Alike attributes f g := by
  have hid : g.id = f.id := hg.id.trans (hnext.trans hf.id.symm)
  refine ⟨hid, hg.content.trans hf.content.symm, fun key hkey => ?_⟩
  cases hgiven : attributes.get? key with
  | some value => rw [hg.given key value hgiven, hf.given key value hgiven]
  | none =>
    have hne : key ≠ Attributes.uuid := hkey.resolve_right (by simp [hgiven])
    rw [hg.core key hgiven, hf.core key hgiven, hid, if_neg hne, if_neg hne]

/-- **Enqueueing keeps every byte and touches nothing else.**  On every bench, a content that is
handed over as bytes, as a text or in a readable stream goes into one flow file, which the caller
gets and which is appended to the queue; the form makes no difference.  It would make none either if
other identifiers were drawn and the clock showed other times, up to identifier and date.  However
the bench came to be as it is, the number of the flow file is larger than all that were given out
before, as long as numbers are left, and the identifier that is drawn for it is none of those that
were given out, if it was not drawn before. -/
theorem enqueue_appends_exactly (b : Bench υ) (bytes : List UInt8) (attributes : Attributes) :
    ∃ f b', (∀ form, b.enqueueAs form bytes attributes = (.ok f, b')) ∧
      b.Enqueues bytes attributes f b' ∧
      (∀ (c : Bench υ) (form : Form), c.pool.supply.nextId = b.pool.supply.nextId →
        ∃ g c', c.enqueueAs form bytes attributes = (.ok g, c') ∧ Alike attributes f g) ∧
      ∀ (start : Bench υ) (uses : List (Use υ)), uses.foldl use start = b →
        let issued := (start.history uses).issued
        (start.pool.supply.nextId.toNat + issued.length < UInt64.size →
          ∀ e ∈ issued, e.1 < f.id) ∧
        ((∀ i, start.pool.supply.uuids ≤ i → i < b.pool.supply.uuids →
            b.pool.supply.sources.uuid i ≠ b.nextUuid) →
          ∀ e ∈ issued, e.2 ≠ b.nextUuid) := by
  obtain ⟨f, b', henqueue, henqueues⟩ := b.enqueueBytes_enqueues bytes attributes
  refine ⟨f, b', fun form => (b.enqueueAs_eq form bytes attributes).trans henqueue, henqueues,
    fun c form hnext => ?_, ?_⟩
  · obtain ⟨g, c', henqueue', henqueues'⟩ := c.enqueueBytes_enqueues bytes attributes
    exact ⟨g, c', (c.enqueueAs_eq form bytes attributes).trans henqueue',
      henqueues.alike henqueues' hnext⟩
  · intro start uses huses issued
    have hworkspace := workspace_history start uses
    rw [huses] at hworkspace
    have hnumbered := History.Numbered.after start.workspace (start.allActs uses)
    have hpool : (start.history uses).workspace.pool = b.pool :=
      congrArg Workspace.pool hworkspace
    unfold nextUuid
    rw [henqueues.id, ← hpool]
    exact ⟨hnumbered.lt_nextId, fun hunique => hnumbered.sources_eq ▸ hnumbered.uuid_ne
      (hnumbered.sources_eq ▸ hunique)⟩

/-- A text with a zero byte and a byte above `0x7f` is enqueued after a content, and after a session
made a flow file; one attribute is given instead of the usual one. -/
theorem enqueue_appends_exactly_after_two :
    ∃ start : Bench Nat,
      let uses : List (Use Nat) := [.enqueueBytes [104, 105] ∅, .openSession, .call 0 .create]
      let b := uses.foldl use start
      (start.history uses).issued.map Prod.fst = [0, 1] ∧
      ∃ f b', b.enqueueText [97, 0, 255] (.ofList [(Attributes.path, "here")]) = (.ok f, b') ∧
        f.content.bytes = [97, 0, 255] ∧ f.attribute? Attributes.path = some ("here" : Text) ∧
        f.attribute? Attributes.filename = some (Text.decimal f.id.toNat) ∧
        b'.queueSize = ⟨2, 5⟩ ∧
        (∀ e ∈ (start.history uses).issued, e.1 < f.id) ∧
        ∀ e ∈ (start.history uses).issued, f.attribute? Attributes.uuid ≠ some e.2 := by
  let component : Component (Context.signature Nat) Nat := { typeName := "Idle" }
  let body : Program Nat := .finish (.ok ())
  let start : Bench Nat :=
    { processor := { component, trigger := .managed body }, target := ⟨some component⟩, engine := {}
      context := { identifier := "p", processor := {} }, workspace := { pool := {} }
      world := { user := 0 } }
  refine ⟨start, ?_⟩
  intro uses b
  obtain ⟨f, b', henqueue, henqueues, -, hfresh⟩ :=
    b.enqueue_appends_exactly [97, 0, 255] (.ofList [(Attributes.path, "here")])
  obtain ⟨hnumber, huuid⟩ := hfresh start uses rfl
  have huuids : b.pool.supply.uuids = 2 := by decide +kernel
  have hunique : ∀ i, start.pool.supply.uuids ≤ i → i < b.pool.supply.uuids →
      b.pool.supply.sources.uuid i ≠ b.nextUuid := fun i _ hi heq =>
    absurd (Uuid.text_inj (Nat.lt_trans (huuids ▸ hi) (by decide)) (huuids ▸ by decide) heq)
      (Nat.ne_of_lt hi)
  refine ⟨by decide +kernel, f, b', henqueue .text, henqueues.content,
    henqueues.given _ _ (by decide +kernel), henqueues.core _ (by decide +kernel), ?_,
    hnumber (by decide +kernel), fun e he hsome => ?_⟩
  · rw [henqueues.size]
    decide +kernel
  · rw [henqueues.core _ (by decide +kernel)] at hsome
    exact huuid hunique e he (Option.some.inj hsome).symm

end Bench

end ProcessorBench
