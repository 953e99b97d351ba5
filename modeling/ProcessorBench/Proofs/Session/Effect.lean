import ProcessorBench.Session.Operation
import Mathlib.Logic.Relation

/-!
# What an operation of a session can do

An operation that does not end the unit of work falls into one of three classes
(`Operation.effect`):

* it goes on with the work by elementary changes, `Scope.Tends`: a flow file is taken from the
  queue, a held one gets a new version or another fate, a counter is adjusted;
* it makes one new flow file under the next number, `Scope.Creates`;
* it forgets what was routed.

A call that fails, or that has nothing to change, belongs to the first class, with no change at
all.  An invariant of sessions is therefore a matter of the constructors of `Scope.Tends`, of one
creation, of commit and of rollback, and no proof has to look into the operations again.
-/

set_option autoImplicit false

namespace ProcessorBench

theorem Session.held_eq_ok {s : Session} {f : FlowFile} {h : Holding} :
    s.held f = .ok h ↔ s.holdings.get? f.id = some h ∧ h.fate ≠ .drop := by
  unfold Session.held
  cases hg : s.holdings.get? f.id with
  | none => simp
  | some g =>
    by_cases hd : g.fate = .drop
    · simp only [hd, if_true, reduceCtorEq, false_iff, not_and, Option.some.injEq]
      rintro rfl
      exact fun hne => hne hd
    · simp only [hd, if_false, Except.ok.injEq, Option.some.injEq]
      constructor
      · rintro rfl
        exact ⟨rfl, hd⟩
      · exact fun h => h.1

namespace Scope

/-- The fate can be decided for the holding without giving the flow file up. -/
def Allows (s : Scope) (h : Holding) : Fate → Prop
  | .route relationship => s.pool.declares relationship = true
  | .giveBack => h.polled.isSome = true
  | _ => False

/-- The scope after the oldest flow file of the queue was taken up. -/
def take (s : Scope) (f : FlowFile) (rest : List FlowFile) : Scope :=
  ⟨s.session.holdPolled f, { s.pool with queue := ⟨rest⟩ }⟩

/-- One elementary change of the work that a session does. -/
inductive Tends (s : Scope) : Scope → Prop where
  | take {f : FlowFile} {rest : List FlowFile} (waits : s.pool.queue.flowFiles = f :: rest) :
      Tends s (s.take f rest)
  | content {f : FlowFile} {h : Holding} (bytes : List UInt8) (held : s.session.held f = .ok h) :
      Tends s (s.replaceContent h bytes).2
  | attributes {f : FlowFile} {h : Holding} (attributes : Attributes) (details : Text)
      (held : s.session.held f = .ok h) : Tends s (s.replaceAttributes h attributes details).2
  | decide {f : FlowFile} {h : Holding} (fate : Fate) (held : s.session.held f = .ok h)
      (allowed : s.Allows h fate) : Tends s { s with session := s.session.assign h fate }
  | drop {f : FlowFile} {h : Holding} (held : s.session.held f = .ok h) :
      Tends s { s with session := (s.session.assign h .drop).record .drop f.id }
  | count (name : Text) (delta : Int64) (immediate : Bool) :
      Tends s (s.adjustCounter name delta immediate)

/-- Any number of elementary changes, one after the other. -/
abbrev Works : Scope → Scope → Prop := Relation.ReflTransGen Tends

/-- A flow file was made under the next number and taken up. -/
inductive Creates (s : Scope) : Scope → Prop where
  | intro (f : FlowFile) (supply : Supply) (kind : Provenance.Kind) (details : Text)
      (numbered : f.id = s.pool.supply.nextId)
      (next : supply.nextId = s.pool.supply.nextId + 1) :
      Creates s { session := (s.session.hold f).record kind f.id details,
                  pool := { s.pool with supply } }

/-! ## The operations, one by one -/

/-- An operation on a held flow file does nothing, or what it does with the holding. -/
theorem withHeld_snd {α : Type} {s : Scope} {f : FlowFile}
    {k : Holding → Except Error α × Scope} {P : Scope → Prop} (same : P s)
    (goes : ∀ h, s.session.held f = .ok h → P (k h).2) : P (s.withHeld f k).2 := by
  unfold withHeld
  split
  · exact same
  · rename_i h hh
    exact goes h hh

theorem poll_works (s : Scope) : s.Works s.poll.2 := by
  unfold poll Pool.poll Queue.poll
  cases hq : s.pool.queue.flowFiles with
  | nil => exact .refl
  | cons f rest => exact .single (.take hq)

theorem pollUpTo_nil {s : Scope} (hq : s.pool.queue.flowFiles = []) (max : Nat) :
    (s.pollUpTo max).2 = s := by
  obtain ⟨session, pool⟩ := s
  obtain ⟨supply, relationships, ⟨queue⟩, counters, provenance⟩ := pool
  subst hq
  simp [pollUpTo, Pool.pollUpTo, Queue.pollUpTo]

/-- Taking several flow files is taking the oldest one and then the others. -/
theorem pollUpTo_cons {s : Scope} {f : FlowFile} {rest : List FlowFile}
    (hq : s.pool.queue.flowFiles = f :: rest) (max : Nat) :
    (s.pollUpTo (max + 1)).2 = ((s.take f rest).pollUpTo max).2 := by
  simp [pollUpTo, Pool.pollUpTo, Queue.pollUpTo, take, hq]

theorem pollUpTo_works (s : Scope) (max : Nat) : s.Works (s.pollUpTo max).2 := by
  induction max generalizing s with
  | zero =>
    have h : (s.pollUpTo 0).2 = s := by simp [pollUpTo, Pool.pollUpTo, Queue.pollUpTo]
    rw [h]
  | succ max ih =>
    cases hq : s.pool.queue.flowFiles with
    | nil => rw [pollUpTo_nil hq]
    | cons f rest =>
      rw [pollUpTo_cons hq]
      exact .head (.take hq) (ih _)

theorem importBytes_works (s : Scope) (bytes : List UInt8) (f : FlowFile) :
    s.Works (s.importBytes bytes f).2 :=
  withHeld_snd .refl fun _ hh => .single (.content bytes hh)

theorem importStream_works (s : Scope) (stream : Stream) (f : FlowFile) :
    s.Works (s.importStream stream f).2 := by
  refine withHeld_snd .refl fun h _ => ?_
  cases stream with
  | broken => exact .refl
  | readable bytes => exact importBytes_works s bytes f

theorem write_works (s : Scope) (writer : Option Writer) (f : FlowFile) :
    s.Works (s.write writer f).2 := by
  unfold write
  cases writer with
  | none => exact .refl
  | some writer =>
    refine withHeld_snd .refl fun h hh => ?_
    cases writer h.current.content.bytes with
    | error e => exact .refl
    | ok bytes => exact .single (.content bytes hh)

theorem putAttribute_works (s : Scope) (f : FlowFile) (key value : Text) :
    s.Works (s.putAttribute f key value).2 :=
  withHeld_snd .refl fun _ hh => .single (.attributes _ _ hh)

theorem putAttributes_works (s : Scope) (f : FlowFile) (attributes : Attributes) :
    s.Works (s.putAttributes f attributes).2 := by
  refine withHeld_snd .refl fun h hh => ?_
  split
  · exact .refl
  · exact .single (.attributes _ _ hh)

theorem removeAttribute_works (s : Scope) (f : FlowFile) (key : Text) :
    s.Works (s.removeAttribute f key).2 := by
  refine withHeld_snd .refl fun h hh => ?_
  split
  · exact .single (.attributes _ _ hh)
  · exact .refl

theorem read_works (s : Scope) (f : FlowFile) : s.Works (s.read f).2 :=
  withHeld_snd .refl fun _ _ => .refl

theorem route_works (s : Scope) (f : FlowFile) (relationship : Text) :
    s.Works (s.route f relationship).2 := by
  refine withHeld_snd .refl fun h hh => ?_
  split
  · rename_i hd
    exact .single (.decide (.route relationship) hh hd)
  · exact .refl

theorem routeAll_works (s : Scope) (fs : List FlowFile) (relationship : Text) :
    s.Works (s.routeAll fs relationship).2 := by
  induction fs generalizing s with
  | nil => exact .refl
  | cons f rest ih =>
    have hf := route_works s f relationship
    unfold routeAll
    split
    · rename_i e t ht
      rw [ht] at hf
      exact hf
    · rename_i t ht
      rw [ht] at hf
      exact hf.trans (ih t)

theorem giveBack_works (s : Scope) (f : FlowFile) : s.Works (s.giveBack f).2 := by
  refine withHeld_snd .refl fun h hh => ?_
  split
  · rename_i hp
    exact .single (.decide .giveBack hh hp)
  · exact .refl

theorem drop_works (s : Scope) (f : FlowFile) : s.Works (s.drop f).2 :=
  withHeld_snd .refl fun _ hh => .single (.drop hh)

theorem create_creates (s : Scope) : s.Creates s.create.2 :=
  .intro (s.create).1 _ .create [] rfl rfl

end Scope

namespace Operation

/-- What an operation leaves that does not end the unit of work. -/
inductive Effect (op : Operation) (s : Scope) : Scope → Prop where
  | works {s' : Scope} (works : s.Works s') : Effect op s s'
  | creates {s' : Scope} (creates : s.Creates s') : Effect op s s'
  | forgets (clears : op = .clearRouted) : Effect op s s.clearRouted

/-- The operation makes a flow file if it succeeds. -/
def makes : Operation → Bool
  | create | createChild _ | clone _ => true
  | _ => false

/-- The operation makes a flow file, and succeeds. -/
def made (op : Operation) (s : Scope) : Bool := op.makes && (op.run s).1.isOk

/-- An operation that is to make a flow file from a held one makes it, or fails and does nothing. -/
theorem made_or_works_of_withHeld (op : Operation) (hmakes : op.makes = true) {s : Scope}
    {f : FlowFile} {k : Holding → Except Error FlowFile × Scope}
    (hrun : op.run s = run.answer .flowFile (s.withHeld f k))
    (hk : ∀ h, (k h).1.isOk = true ∧ s.Creates (k h).2) :
    (op.made s = true ∧ s.Creates (op.run s).2) ∨
      (op.made s = false ∧ (s.Works (op.run s).2 ∨ op = .clearRouted)) := by
  unfold made
  rw [hmakes, Bool.true_and, hrun]
  unfold Scope.withHeld
  cases s.session.held f with
  | error e => exact .inr ⟨rfl, .inl .refl⟩
  | ok h =>
    obtain ⟨hok, hcreates⟩ := hk h
    refine .inl ⟨?_, hcreates⟩
    unfold run.answer
    dsimp only
    generalize (k h).1 = answer at hok ⊢
    cases answer with
    | error e => cases hok
    | ok f => rfl

/-- **Every operation but commit and rollback makes one flow file and succeeds, or goes on with the
work, or forgets.** -/
theorem made_or_works {op : Operation} (hop : op.settles = false) (s : Scope) :
    (op.made s = true ∧ s.Creates (op.run s).2) ∨
      (op.made s = false ∧ (s.Works (op.run s).2 ∨ op = .clearRouted)) := by
  cases op with
  | create => exact .inl ⟨rfl, s.create_creates⟩
  | createChild parent =>
    refine made_or_works_of_withHeld (.createChild parent) rfl rfl fun h => ⟨rfl, ?_⟩
    exact .intro { id := s.pool.supply.nextId, attributes := _, content := _, entryDate := _ } _
      .create _ rfl rfl
  | clone source =>
    refine made_or_works_of_withHeld (.clone source) rfl rfl fun h => ⟨rfl, ?_⟩
    exact .intro { id := s.pool.supply.nextId, attributes := _, content := _, entryDate := _ } _
      .clone _ rfl rfl
  | poll => exact .inr ⟨rfl, .inl s.poll_works⟩
  | pollUpTo max => exact .inr ⟨rfl, .inl (s.pollUpTo_works max)⟩
  | importBytes bytes f => exact .inr ⟨rfl, .inl (s.importBytes_works bytes f)⟩
  | importStream stream f => exact .inr ⟨rfl, .inl (s.importStream_works stream f)⟩
  | write writer f => exact .inr ⟨rfl, .inl (s.write_works writer f)⟩
  | putAttribute f key value => exact .inr ⟨rfl, .inl (s.putAttribute_works f key value)⟩
  | putAttributes f attributes => exact .inr ⟨rfl, .inl (s.putAttributes_works f attributes)⟩
  | removeAttribute f key => exact .inr ⟨rfl, .inl (s.removeAttribute_works f key)⟩
  | read f => exact .inr ⟨rfl, .inl (s.read_works f)⟩
  | route f relationship => exact .inr ⟨rfl, .inl (s.route_works f relationship)⟩
  | routeAll fs relationship => exact .inr ⟨rfl, .inl (s.routeAll_works fs relationship)⟩
  | giveBack f => exact .inr ⟨rfl, .inl (s.giveBack_works f)⟩
  | drop f => exact .inr ⟨rfl, .inl (s.drop_works f)⟩
  | adjustCounter name delta immediate =>
    exact .inr ⟨rfl, .inl (.single (.count name delta immediate))⟩
  | clearRouted => exact .inr ⟨rfl, .inr rfl⟩
  | commit | rollback => cases hop

/-- **Every operation but commit and rollback goes on with the work, makes one flow file, or
forgets.** -/
theorem effect {op : Operation} (hop : op.settles = false) (s : Scope) :
    op.Effect s (op.run s).2 := by
  obtain ⟨-, hcreates⟩ | ⟨-, hworks | rfl⟩ := made_or_works hop s
  · exact .creates hcreates
  · exact .works hworks
  · exact .forgets rfl

end Operation

end ProcessorBench
