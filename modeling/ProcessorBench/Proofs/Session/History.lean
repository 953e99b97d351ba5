import ProcessorBench.Proofs.Session.Committed
import ProcessorBench.Proofs.Session.Identifier

/-!
# The history of a workspace

What a workspace reports depends on the sessions that count, and on what each of them committed.
Both are told by what happened at the workspace since it had no sessions.

* `Workspace.Act` — whatever can happen at a workspace, with sessions working in turns.
* `History` — a workspace with what was answered, opened and given out on the way.
* `History.Numbered` — which numbers and unique identifiers were given out.
* `History.Faithful` — the sessions that count, and what they committed, are those of the history.
-/

set_option autoImplicit false

namespace ProcessorBench

open Program (Call)

namespace Workspace

/-- Something that happens at a workspace: an event of its sessions or its supply, or what else a
caller can do. -/
inductive Act where
  | event (e : Event)
  /-- Flow files are queued that a caller has at hand, with whatever numbers. -/
  | queue (fs : List FlowFile)
  /-- All sessions are forgotten. -/
  | forget
  | clearProvenance

/-- The flow files that the act brings in, if any, have numbers from the supply. -/
def Act.fromSupply : Act → Bool
  | .queue _ => false
  | _ => true

def act (w : Workspace) : Act → Workspace
  | .event e => w.handle e
  | .queue fs => { w with pool := { w.pool with queue := w.pool.queue.offerAll fs } }
  | .forget => w.forgetSessions
  | .clearProvenance => { w with pool := { w.pool with provenance := [] } }

/-- The call that a session answers, with the number of the session. -/
def replies (w : Workspace) : Act → List (Nat × Call)
  | .event e => w.answered e
  | _ => []

/-- The number that is given out for a flow file, with its unique identifier. -/
def stamps (w : Workspace) : Act → List (UInt64 × Text)
  | .event e => (w.issues e).map fun i => (i.1, w.pool.supply.sources.uuid w.pool.supply.uuids)
  | _ => []

end Workspace

open Workspace (Act callsTo)

/-- A workspace, with what happened since it had no sessions. -/
structure History where
  workspace : Workspace
  /-- The calls that sessions answered, each with the number of the session. -/
  calls : List (Nat × Call) := []
  /-- The sessions that were opened since all were forgotten the last time, by number. -/
  opened : List Nat := []
  /-- The numbers that were given out for flow files, with their unique identifiers. -/
  issued : List (UInt64 × Text) := []

namespace History

/-- The sessions that count after the act. -/
def reopen (h : History) : Act → List Nat
  | .event .openSession => h.opened ++ [h.workspace.sessions.length]
  | .forget => []
  | _ => h.opened

def step (h : History) (a : Act) : History where
  workspace := h.workspace.act a
  calls := h.calls ++ h.workspace.replies a
  opened := h.reopen a
  issued := h.issued ++ h.workspace.stamps a

/-- The history of the workspace in these acts. -/
def after (w : Workspace) (acts : List Act) : History := acts.foldl step { workspace := w }

theorem workspace_foldl_step (h : History) (acts : List Act) :
    (acts.foldl step h).workspace = acts.foldl Workspace.act h.workspace := by
  induction acts generalizing h with
  | nil => rfl
  | cons a rest ih => exact ih (h.step a)

theorem workspace_after (w : Workspace) (acts : List Act) :
    (after w acts).workspace = acts.foldl Workspace.act w :=
  workspace_foldl_step { workspace := w } acts

/-- What the sessions that count committed, session after session: each flow file with its
relationship. -/
def committed (h : History) : List (Text × FlowFile) :=
  h.opened.flatMap fun n => Program.committed (callsTo n h.calls)

/-- What the sessions that count committed to the relationship, session after session. -/
def committedTo (h : History) (relationship : Text) : List FlowFile :=
  (h.committed.filter fun e => e.1 = relationship).map Prod.snd

end History

/-! ## Numbers and identifiers -/

namespace Workspace

theorem stamps_of_level {w : Workspace} {e : Event}
    (h : w.pool.supply.Level (w.handle e).pool.supply) : w.stamps (.event e) = [] := by
  have hnone : w.issues e = [] := if_pos h.1
  show (w.issues e).map _ = _
  rw [hnone, List.map_nil]

theorem stamps_of_next {w : Workspace} {e : Event}
    (h : (w.handle e).pool.supply.nextId = w.pool.supply.nextId + 1) :
    w.stamps (.event e) =
      [(w.pool.supply.nextId, w.pool.supply.sources.uuid w.pool.supply.uuids)] := by
  have hone : w.issues e = [(w.pool.supply.nextId, e.session?)] :=
    if_neg (h ▸ Supply.succ_ne _)
  show (w.issues e).map _ = _
  rw [hone, List.map_singleton]

/-- **Each act takes the next number with the next identifier, or neither.** -/
theorem act_supply (w : Workspace) (a : Act) :
    (w.stamps a = [] ∧ w.pool.supply.Level (w.act a).pool.supply) ∨
    (w.stamps a = [(w.pool.supply.nextId, w.pool.supply.sources.uuid w.pool.supply.uuids)] ∧
      (w.act a).pool.supply.nextId = w.pool.supply.nextId + 1 ∧
      (w.act a).pool.supply.uuids = w.pool.supply.uuids + 1 ∧
      (w.act a).pool.supply.sources = w.pool.supply.sources) := by
  cases a with
  | queue fs | forget | clearProvenance => exact .inl ⟨rfl, rfl, rfl, rfl⟩
  | event e =>
    cases e with
    | openSession =>
      have hlevel : w.pool.supply.Level (w.handle .openSession).pool.supply := ⟨rfl, rfl, rfl⟩
      exact .inl ⟨stamps_of_level hlevel, hlevel⟩
    | enqueue bytes attributes =>
      obtain ⟨f, supply, hmake, hmakes⟩ := Bench.makeFlowFile_spec w.pool.supply bytes attributes
      have hsupply : (w.handle (.enqueue bytes attributes)).pool.supply = supply := by
        show (w.enqueueBytes bytes attributes).pool.supply = _
        unfold enqueueBytes
        rw [hmake]
      rw [← hsupply] at hmakes
      exact .inr ⟨stamps_of_next hmakes.nextId, hmakes.nextId, hmakes.uuids, hmakes.sources⟩
    | call n op =>
      cases hs : w.scope? n with
      | none =>
        have hlevel : w.pool.supply.Level (w.handle (.call n op)).pool.supply := by
          rw [handle_call_of_none hs]
          exact ⟨rfl, rfl, rfl⟩
        exact .inl ⟨stamps_of_level hlevel, hlevel⟩
      | some s =>
        have hpool := (scope?_eq_some hs).2.2
        have hafter : (w.handle (.call n op)).pool.supply = (op.run s).2.pool.supply := by
          rw [handle_call hs]
          rfl
        obtain ⟨f, -, hstamps⟩ | ⟨-, hlevel⟩ := op.run_supply s
        · rw [hpool, ← hafter] at hstamps
          exact .inr ⟨stamps_of_next hstamps.nextId, hstamps.nextId, hstamps.uuids,
            hstamps.sources⟩
        · rw [hpool, ← hafter] at hlevel
          exact .inl ⟨stamps_of_level hlevel, hlevel⟩

end Workspace

namespace History

variable {first : UInt64} {sources : Sources} {start : Nat} {h : History} {a : Act}

/-- Numbers were given out from `first` on and identifiers were drawn from that of `start` on, in
this order. -/
structure Numbered (first : UInt64) (sources : Sources) (start : Nat) (h : History) : Prop where
  nextId : h.workspace.pool.supply.nextId = first + .ofNat h.issued.length
  uuids : h.workspace.pool.supply.uuids = start + h.issued.length
  sources_eq : h.workspace.pool.supply.sources = sources
  issued : h.issued = (List.range h.issued.length).map fun i =>
    (first + .ofNat i, sources.uuid (start + i))

theorem Numbered.step (hn : h.Numbered first sources start) (a : Act) :
    (h.step a).Numbered first sources start := by
  obtain ⟨hnone, hlevel⟩ | ⟨hone, hid, huuid, hsources⟩ := h.workspace.act_supply a
  · have hissued : (h.step a).issued = h.issued := by
      show h.issued ++ _ = _
      rw [hnone, List.append_nil]
    refine ⟨?_, ?_, hlevel.sources.trans hn.sources_eq, ?_⟩
    · rw [hissued]
      exact hlevel.nextId.trans hn.nextId
    · rw [hissued]
      exact hlevel.uuids.trans hn.uuids
    · rw [hissued]
      exact hn.issued
  · have hissued : (h.step a).issued =
        h.issued ++ [(first + .ofNat h.issued.length, sources.uuid (start + h.issued.length))] := by
      show h.issued ++ _ = _
      rw [hone, hn.nextId, hn.uuids, hn.sources_eq]
    have hlength : (h.step a).issued.length = h.issued.length + 1 := by
      rw [hissued, List.length_append, List.length_singleton]
    refine ⟨?_, ?_, hsources.trans hn.sources_eq, ?_⟩
    · rw [hlength, ← Supply.next_succ, ← hn.nextId]
      exact hid
    · rw [hlength, ← Nat.add_assoc, ← hn.uuids]
      exact huuid
    · rw [hlength, List.range_succ, List.map_append, ← hn.issued, hissued]
      rfl

/-- **Numbers and identifiers are given out one after the other**, whatever happens. -/
theorem Numbered.after (w : Workspace) (acts : List Act) :
    (after w acts).Numbered w.pool.supply.nextId w.pool.supply.sources w.pool.supply.uuids := by
  unfold History.after
  induction acts using List.reverseRecOn with
  | nil =>
    refine ⟨?_, rfl, rfl, rfl⟩
    show w.pool.supply.nextId = _ + 0
    rw [UInt64.add_zero]
  | append_singleton acts a ih =>
    rw [List.foldl_append]
    exact ih.step a

/-- The next number is as far from the first one as numbers were given out, if there are so
many. -/
theorem Numbered.toNat_nextId (hn : h.Numbered first sources start)
    (hlt : first.toNat + h.issued.length < UInt64.size) :
    h.workspace.pool.supply.nextId.toNat = first.toNat + h.issued.length := by
  rw [hn.nextId, UInt64.toNat_add, UInt64.toNat_ofNat_of_lt' (by omega)]
  exact Nat.mod_eq_of_lt hlt

/-- The next number is larger than all that were given out. -/
theorem Numbered.lt_nextId (hn : h.Numbered first sources start)
    (hlt : first.toNat + h.issued.length < UInt64.size) :
    ∀ e ∈ h.issued, e.1 < h.workspace.pool.supply.nextId := by
  intro e he
  rw [hn.issued] at he
  obtain ⟨i, hi, rfl⟩ := List.mem_map.1 he
  have hi' := List.mem_range.1 hi
  rw [UInt64.lt_iff_toNat_lt, hn.toNat_nextId hlt, UInt64.toNat_add,
    UInt64.toNat_ofNat_of_lt' (Nat.lt_of_le_of_lt (by omega) hlt),
    Nat.mod_eq_of_lt (Nat.lt_of_le_of_lt (by omega) hlt)]
  omega

/-- The identifier that is drawn next is none of those that flow files got, if it was not drawn
before. -/
theorem Numbered.uuid_ne (hn : h.Numbered first sources start)
    (hunique : ∀ i, start ≤ i → i < h.workspace.pool.supply.uuids →
      sources.uuid i ≠ sources.uuid h.workspace.pool.supply.uuids) :
    ∀ e ∈ h.issued, e.2 ≠ sources.uuid h.workspace.pool.supply.uuids := by
  intro e he
  rw [hn.issued] at he
  obtain ⟨i, hi, rfl⟩ := List.mem_map.1 he
  have hi' := List.mem_range.1 hi
  have huuids := hn.uuids
  exact hunique (start + i) (by omega) (by omega)

/-! ## Sessions that count -/

/-- The sessions that count are those of the history, and each has what its calls tell. -/
structure Faithful (h : History) : Prop where
  forgotten : h.workspace.forgotten ≤ h.workspace.sessions.length
  opened : h.opened = (List.range h.workspace.sessions.length).drop h.workspace.forgotten
  records : ∀ n, (h.workspace.session n).Records (callsTo n h.calls)

end History

namespace Workspace

variable {w : Workspace}

/-- To queue a content is nothing to the sessions. -/
theorem sessions_enqueueBytes (w : Workspace) (bytes : List UInt8) (attributes : Attributes) :
    (w.enqueueBytes bytes attributes).sessions = w.sessions ∧
      (w.enqueueBytes bytes attributes).forgotten = w.forgotten := by
  obtain ⟨f, supply, henqueue, -⟩ := w.enqueueBytes_eq bytes attributes
  rw [henqueue]
  exact ⟨rfl, rfl⟩

/-- No event forgets a session. -/
theorem forgotten_handle (w : Workspace) (e : Event) : (w.handle e).forgotten = w.forgotten := by
  cases e with
  | openSession => rfl
  | enqueue bytes attributes => exact (w.sessions_enqueueBytes bytes attributes).2
  | call n op =>
    show (w.perform n op).2.forgotten = _
    unfold perform
    cases w.scope? n <;> rfl

theorem forgotten_foldl (w : Workspace) (events : List Event) :
    (events.foldl handle w).forgotten = w.forgotten := by
  induction events generalizing w with
  | nil => rfl
  | cons e rest ih => exact (ih (w.handle e)).trans (w.forgotten_handle e)

end Workspace

namespace History

variable {h : History}

/-- An act that neither opens sessions nor forgets or calls them. -/
theorem Faithful.aside (hf : h.Faithful) {h' : History}
    (hsessions : h'.workspace.sessions = h.workspace.sessions)
    (hforgotten : h'.workspace.forgotten = h.workspace.forgotten)
    (hcalls : h'.calls = h.calls) (hopened : h'.opened = h.opened) : h'.Faithful where
  forgotten := by
    rw [hsessions, hforgotten]
    exact hf.forgotten
  opened := by
    rw [hopened, hsessions, hforgotten]
    exact hf.opened
  records n := by
    unfold Workspace.session
    rw [hsessions, hcalls]
    exact hf.records n

theorem Faithful.openSession (hf : h.Faithful) : (h.step (.event .openSession)).Faithful where
  forgotten := by
    show h.workspace.forgotten ≤ (h.workspace.sessions ++ [({} : Session)]).length
    rw [List.length_append]
    exact Nat.le_add_right_of_le hf.forgotten
  opened := by
    show h.opened ++ [h.workspace.sessions.length] =
      (List.range (h.workspace.sessions ++ [({} : Session)]).length).drop h.workspace.forgotten
    have hle : h.workspace.forgotten ≤ (List.range h.workspace.sessions.length).length := by
      rw [List.length_range]
      exact hf.forgotten
    rw [List.length_append, List.length_singleton, List.range_succ,
      List.drop_append_of_le_length hle, ← hf.opened]
  records n := by
    show (h.workspace.openSession.2.session n).Records (callsTo n (h.calls ++ []))
    rw [Workspace.session_openSession, List.append_nil]
    exact hf.records n

theorem Faithful.call (hf : h.Faithful) (n : Nat) (op : Operation) :
    (h.step (.event (.call n op))).Faithful := by
  cases hs : h.workspace.scope? n with
  | none =>
    have hsame : h.workspace.act (.event (.call n op)) = h.workspace :=
      Workspace.handle_call_of_none hs op
    have hcalls : (h.step (.event (.call n op))).calls = h.calls := by
      show h.calls ++ h.workspace.answered (.call n op) = _
      rw [Workspace.answered_call_of_none hs, List.append_nil]
    exact hf.aside (congrArg Workspace.sessions hsame) (congrArg Workspace.forgotten hsame) hcalls
      rfl
  | some s =>
    obtain ⟨hn, hsession, -⟩ := Workspace.scope?_eq_some hs
    have hresume : h.workspace.act (.event (.call n op)) = h.workspace.resume n (op.run s).2 :=
      Workspace.handle_call hs op
    have hlength : (h.workspace.act (.event (.call n op))).sessions.length =
        h.workspace.sessions.length := by
      rw [hresume]
      exact List.length_set
    have hforgotten : (h.workspace.act (.event (.call n op))).forgotten =
        h.workspace.forgotten := h.workspace.forgotten_handle _
    refine ⟨?_, ?_, fun m => ?_⟩
    · show (h.workspace.act (.event (.call n op))).forgotten ≤ (h.workspace.act _).sessions.length
      rw [hforgotten, hlength]
      exact hf.forgotten
    · show h.opened = (List.range (h.workspace.act _).sessions.length).drop
        (h.workspace.act (.event (.call n op))).forgotten
      rw [hforgotten, hlength]
      exact hf.opened
    · show ((h.workspace.act (.event (.call n op))).session m).Records
        (callsTo m (h.calls ++ h.workspace.answered (.call n op)))
      rw [hresume, Workspace.answered_call hs, Workspace.session_resume hn,
        Workspace.callsTo_append, Workspace.callsTo_singleton]
      have hrecords := hf.records m
      by_cases hm : m = n
      · subst hm
        rw [← hsession] at hrecords
        rw [if_pos rfl, if_pos rfl]
        exact hrecords.run op
      · rw [if_neg hm, if_neg fun heq => hm heq.symm, List.append_nil]
        exact hrecords

theorem Faithful.forget (hf : h.Faithful) : (h.step .forget).Faithful where
  forgotten := Nat.le_refl _
  opened := by
    show [] = (List.range h.workspace.sessions.length).drop h.workspace.sessions.length
    rw [List.drop_eq_nil_of_le (by rw [List.length_range])]
  records n := by
    show ((h.workspace.forgetSessions).session n).Records (callsTo n (h.calls ++ []))
    rw [List.append_nil]
    exact hf.records n

theorem Faithful.step (hf : h.Faithful) (a : Act) : (h.step a).Faithful := by
  cases a with
  | queue fs | clearProvenance => exact hf.aside rfl rfl (List.append_nil _) rfl
  | forget => exact hf.forget
  | event e =>
    cases e with
    | openSession => exact hf.openSession
    | enqueue bytes attributes =>
      obtain ⟨hsessions, hforgotten⟩ := h.workspace.sessions_enqueueBytes bytes attributes
      exact hf.aside hsessions hforgotten (List.append_nil _) rfl
    | call n op => exact hf.call n op

/-- **The history of a workspace is faithful**, whatever happens. -/
theorem Faithful.after {w : Workspace} (hsessions : w.sessions = [])
    (hforgotten : w.forgotten = 0) (acts : List Act) : (after w acts).Faithful := by
  unfold History.after
  induction acts using List.reverseRecOn with
  | nil =>
    refine ⟨?_, ?_, fun n => ?_⟩
    · show w.forgotten ≤ _
      rw [hforgotten]
      exact Nat.zero_le _
    · show [] = (List.range w.sessions.length).drop w.forgotten
      rw [hsessions]
      exact List.drop_nil.symm
    · have hsession : w.session n = {} := by
        unfold Workspace.session
        rw [hsessions]
        rfl
      show (w.session n).Records []
      rw [hsession]
      exact .start
  | append_singleton acts a ih =>
    rw [List.foldl_append]
    exact ih.step a

theorem Faithful.created (hf : h.Faithful) :
    h.workspace.created = h.opened.map h.workspace.session := by
  unfold Workspace.created
  rw [hf.opened, List.map_drop, ← h.workspace.sessions_eq]

/-- The sessions that count have, one after the other, what they committed. -/
theorem Faithful.flatMap_routedTo (hf : h.Faithful) (relationship : Text) :
    h.workspace.created.flatMap (·.routedTo relationship) = h.committedTo relationship := by
  unfold committedTo committed
  rw [hf.created, List.flatMap_map, List.filter_flatMap, List.map_flatMap]
  exact congrArg (fun f => h.opened.flatMap f) (funext fun n => (hf.records n).routed relationship)

end History

end ProcessorBench
