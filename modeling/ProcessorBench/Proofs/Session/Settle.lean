import ProcessorBench.Proofs.Session.Holdings

/-!
# Which flow files a commit and a rollback move

The flow files that leave, return, are given up or were taken, read off the holdings by number:
`leaving_ids`, `returning_ids`, `dropping_eq`, `taken_ids`.  What was taken depends on the polled
versions alone (`taken_perm`), and taking adds one (`taken_holdPolled`).  A commit appends to each
relationship what leaves through it (`routedTo_publish`).
-/

set_option autoImplicit false

namespace ProcessorBench

namespace Session

/-- The numbers of the held flow files with a property. -/
def numbers (s : Session) (p : Holding → Bool) : List UInt64 :=
  (s.holdings.entries.filter fun e => p e.2).map Prod.fst

/-- A number stands among those with a property once, if its holding has the property. -/
theorem count_numbers (s : Session) (p : Holding → Bool) (id : UInt64) :
    (s.numbers p).count id = if (s.holdings.get? id).any p then 1 else 0 :=
  s.holdings.count_keys_filter (fun e => p e.2) id

theorem numbers_eq_nil {s : Session} {p : Holding → Bool} (hp : ∀ h, p h = false) :
    s.numbers p = [] := by
  unfold numbers
  simp [hp]

/-- What is read off the holdings, by number: those with a property, in their order. -/
theorem map_filterMap_values {γ : Type} (s : Session) (g : Holding → Option γ) (φ : γ → UInt64)
    (p : Holding → Bool)
    (hg : ∀ k h, s.holdings.get? k = some h → (g h).map φ = if p h then some k else none) :
    (s.holdings.values.filterMap g).map φ = s.numbers p := by
  have hl : ∀ e ∈ s.holdings.entries, (g e.2).map φ = if p e.2 then some e.1 else none :=
    fun e he => hg e.1 e.2 ((s.holdings.mem_entries _ _).1 he)
  unfold Table.values numbers
  generalize s.holdings.entries = l at hl
  induction l with
  | nil => rfl
  | cons e l ih =>
    have he := hl e List.mem_cons_self
    have htl := ih fun d hd => hl d (List.mem_cons_of_mem e hd)
    rw [List.map_cons, List.filterMap_cons, List.filter_cons]
    cases hp : p e.2 with
    | false =>
      rw [hp, if_neg Bool.false_ne_true, Option.map_eq_none_iff] at he
      rw [he]
      exact htl
    | true =>
      rw [hp, if_pos rfl] at he
      obtain ⟨x, hx, hφ⟩ := Option.map_eq_some_iff.1 he
      rw [hx, if_pos rfl, List.map_cons, List.map_cons, hφ, htl]

theorem returning_ids {s : Session} (hs : s.Keyed) :
    s.returning.map (·.id) = s.numbers fun h => h.fate = .giveBack := by
  unfold returning
  rw [List.map_map, ← List.filterMap_eq_filter]
  refine map_filterMap_values s _ _ _ fun k h hg => ?_
  rw [← hs.current k h hg]
  by_cases hf : h.fate = .giveBack <;> simp [hf, Option.guard]

theorem taken_ids {s : Session} (hs : s.Keyed) :
    s.taken.map (·.id) = s.numbers fun h => h.polled.isSome := by
  refine map_filterMap_values s _ _ _ fun k h hg => ?_
  cases hp : h.polled with
  | none => rfl
  | some f =>
    have := hs.polled k h f hg hp
    simp [this]

theorem leaving_ids {s : Session} (hs : s.Keyed) (relationship : Text) :
    ((s.leaving.filter fun e => e.1 = relationship).map fun e => e.2.id) =
      s.numbers fun h => h.fate = .route relationship := by
  unfold leaving
  rw [List.filter_filterMap]
  refine map_filterMap_values s _ _ _ fun k h hg => ?_
  rw [← hs.current k h hg]
  cases hf : h.fate with
  | route r => by_cases hr : r = relationship <;> simp [hr, Option.filter]
  | undecided => simp
  | giveBack => simp
  | drop => simp

theorem dropping_eq (s : Session) :
    s.dropping = (s.numbers fun h => h.fate = .drop).length := by
  unfold dropping numbers Table.values
  rw [List.countP_map, List.length_map, List.countP_eq_length_filter]
  rfl

/-! ## What was taken from the queue -/

theorem mem_taken {s : Session} {f : FlowFile} :
    f ∈ s.taken ↔ ∃ k, (s.holdings.get? k).bind (·.polled) = some f := by
  unfold taken Table.values
  rw [List.mem_filterMap]
  constructor
  · rintro ⟨h, hm, hp⟩
    obtain ⟨⟨k, h⟩, he, rfl⟩ := List.mem_map.1 hm
    refine ⟨k, ?_⟩
    rw [(s.holdings.mem_entries k h).1 he]
    exact hp
  · rintro ⟨k, hk⟩
    obtain ⟨h, hg, hp⟩ := Option.bind_eq_some_iff.1 hk
    exact ⟨h, List.mem_map.2 ⟨(k, h), (s.holdings.mem_entries k h).2 hg, rfl⟩, hp⟩

theorem taken_nodup {s : Session} (hs : s.Keyed) : s.taken.Nodup := by
  have hids : (s.taken.map (·.id)).Nodup := by
    rw [taken_ids hs]
    exact s.holdings.keys_nodup.sublist (List.filter_sublist.map Prod.fst)
  unfold List.Nodup at hids
  rw [List.pairwise_map] at hids
  exact hids.imp fun hne heq => hne (congrArg _ heq)

/-- What was taken depends on the polled versions alone. -/
theorem taken_perm {s s' : Session} (hs : s.Keyed) (hs' : s'.Keyed)
    (h : ∀ k, (s'.holdings.get? k).bind (·.polled) = (s.holdings.get? k).bind (·.polled)) :
    s'.taken.Perm s.taken := by
  refine (List.perm_ext_iff_of_nodup (taken_nodup hs') (taken_nodup hs)).2 fun f => ?_
  simp only [mem_taken, h]

theorem taken_holdPolled {s : Session} (hs : s.Keyed) {f : FlowFile}
    (hnew : ∀ g ∈ s.taken, g.id ≠ f.id) : (s.holdPolled f).taken.Perm (f :: s.taken) := by
  have hpolled : (s.holdings.get? f.id).bind (·.polled) = none := by
    cases hb : (s.holdings.get? f.id).bind (·.polled) with
    | none => rfl
    | some g =>
      obtain ⟨h, hg, hp⟩ := Option.bind_eq_some_iff.1 hb
      exact absurd (hs.polled _ h g hg hp) (hnew g (mem_taken.2 ⟨f.id, hb⟩))
  have hself : (some (polledHolding (s.holdings.get? f.id) f)).bind (·.polled) = some f := by
    cases hg : s.holdings.get? f.id with
    | none => rfl
    | some h =>
      rw [hg] at hpolled
      have hnone : h.polled = none := hpolled
      simp [polledHolding, hnone]
  have hnodup : (f :: s.taken).Nodup :=
    List.nodup_cons.2 ⟨fun hm => hnew f hm rfl, taken_nodup hs⟩
  refine (List.perm_ext_iff_of_nodup (taken_nodup (hs.holdPolled f)) hnodup).2 fun g => ?_
  rw [List.mem_cons, mem_taken, mem_taken]
  simp only [get?_holdPolled]
  constructor
  · rintro ⟨k, hk⟩
    by_cases he : k = f.id
    · rw [if_pos he, hself] at hk
      exact .inl (Option.some.inj hk).symm
    · rw [if_neg he] at hk
      exact .inr ⟨k, hk⟩
  · rintro (rfl | ⟨k, hk⟩)
    · exact ⟨g.id, by rw [if_pos rfl, hself]⟩
    · have he : k ≠ f.id := by
        rintro rfl
        rw [hpolled] at hk
        cases hk
      exact ⟨k, by rw [if_neg he]; exact hk⟩

/-! ## Fates and deliveries -/

/-- No holding is undecided in a session that can be committed. -/
theorem decided_of_undecided? {s : Session} (hs : s.undecided? = none) {k : UInt64} {h : Holding}
    (hg : s.holdings.get? k = some h) : h.fate ≠ .undecided := by
  unfold undecided? at hs
  rw [Option.map_eq_none_iff, List.find?_eq_none] at hs
  have := hs (k, h) ((s.holdings.mem_entries k h).2 hg)
  simpa using this

/-- The number in the way of a commit is that of an undecided holding. -/
theorem undecided_of_undecided? {s : Session} {k : UInt64} (hs : s.undecided? = some k) :
    ∃ h, s.holdings.get? k = some h ∧ h.fate = .undecided := by
  unfold undecided? at hs
  obtain ⟨⟨j, h⟩, hf, rfl⟩ := Option.map_eq_some_iff.1 hs
  refine ⟨h, (s.holdings.mem_entries j h).1 (List.mem_of_find?_eq_some hf), ?_⟩
  simpa using List.find?_some hf

/-- The list of a relationship after deliveries: what was delivered to it stands at the end. -/
theorem getD_foldl_deliver (l : List (Text × FlowFile)) (t : Table Text (List FlowFile))
    (relationship : Text) :
    ((l.foldl deliver t).get? relationship).getD [] =
      (t.get? relationship).getD [] ++ (l.filter fun e => e.1 = relationship).map Prod.snd := by
  induction l generalizing t with
  | nil => simp
  | cons e l ih =>
    rw [List.foldl_cons, ih, List.filter_cons]
    unfold deliver
    rw [Table.get?_insert]
    by_cases he : e.1 = relationship
    · subst he
      simp
    · have hr : relationship ≠ e.1 := fun h => he h.symm
      simp [he, hr]

end Session

/-- A commit appends to each relationship what leaves through it. -/
theorem Scope.routedTo_publish (s : Scope) (relationship : Text) :
    s.publish.session.routedTo relationship = s.session.routedTo relationship ++
      (s.session.leaving.filter fun e => e.1 = relationship).map Prod.snd :=
  Session.getD_foldl_deliver _ _ _

/-- What was decided for a flow file has come about. -/
def Scope.Fulfils (s : Scope) (h : Holding) : Prop :=
  match h.fate with
  | .undecided => False
  | .route relationship => h.current ∈ s.session.routedTo relationship
  | .giveBack => h.current ∈ s.pool.queue.flowFiles
  | .drop => 0 < s.session.removedCount

/-- **A commit fulfils all decisions.** -/
theorem Scope.publish_fulfils {s : Scope} (hs : s.session.undecided? = none) {k : UInt64}
    {h : Holding} (hg : s.session.holdings.get? k = some h) : s.publish.Fulfils h := by
  have hfate := Session.decided_of_undecided? hs hg
  have hmem : h ∈ s.session.holdings.values :=
    List.mem_map.2 ⟨(k, h), (s.session.holdings.mem_entries k h).2 hg, rfl⟩
  unfold Fulfils
  cases hf : h.fate with
  | undecided => exact absurd hf hfate
  | route relationship =>
    have hleaving : (relationship, h.current) ∈ s.session.leaving :=
      List.mem_filterMap.2 ⟨h, hmem, by rw [hf]⟩
    show h.current ∈ s.publish.session.routedTo relationship
    rw [Scope.routedTo_publish]
    refine List.mem_append_right _ (List.mem_map.2 ⟨_, List.mem_filter.2 ⟨hleaving, ?_⟩, rfl⟩)
    exact decide_eq_true rfl
  | giveBack =>
    refine List.mem_append_right _ (List.mem_map.2 ⟨h, List.mem_filter.2 ⟨hmem, ?_⟩, rfl⟩)
    exact decide_eq_true hf
  | drop =>
    have hpos : 0 < s.session.dropping :=
      List.countP_pos_iff.2 ⟨h, hmem, decide_eq_true hf⟩
    exact Nat.lt_of_lt_of_le hpos (Nat.le_add_left _ _)

end ProcessorBench
