import ProcessorBench.Table

/-!
# Tables as collections of entries

`Table.get?` is the view of a table; the operations of the bench also walk over its entries.
This file relates the two: an entry stands in a table exactly if its key is bound to its value
(`mem_entries`), and keys ascend, so none stands twice (`keys_ascending`, `count_keys`).  A table is
what is seen of it (`ext_get?`); what is seen of a merged one (`get?_merge`) and of one that is read
off another, binding by binding (`filterMap`), is told by the tables that it stems from.
-/

set_option autoImplicit false

namespace ProcessorBench

namespace Table

variable {κ β : Type}

namespace Entries

variable [Ord κ]

theorem ne_of_ascending [Std.LawfulEqOrd κ] {l : List (κ × β)} {e : κ × β}
    (h : Ascending (e :: l)) : ∀ d ∈ l, d.1 ≠ e.1 := by
  intro d hd heq
  have hlt := (List.pairwise_cons.1 h).1 d hd
  rw [heq, Std.ReflOrd.compare_self] at hlt
  cases hlt

variable [DecidableEq κ] [Std.LawfulEqOrd κ]

theorem find?_eq_some_iff {l : List (κ × β)} (h : Ascending l) (k : κ) (v : β) :
    find? k l = some v ↔ (k, v) ∈ l := by
  induction l with
  | nil => simp [find?]
  | cons hd tl ih =>
    obtain ⟨a, w⟩ := hd
    have htl := ih (List.pairwise_cons.1 h).2
    have hne := ne_of_ascending h
    simp only [find?, List.mem_cons, Prod.mk.injEq]
    split
    · rename_i hk
      subst hk
      constructor
      · intro hv
        simp only [Option.some.injEq] at hv
        exact Or.inl ⟨rfl, hv.symm⟩
      · rintro (⟨-, rfl⟩ | hm)
        · rfl
        · exact absurd rfl (hne (k, v) hm)
    · rename_i hk
      rw [htl]
      constructor
      · exact Or.inr
      · rintro (⟨rfl, -⟩ | hm)
        · exact absurd rfl hk
        · exact hm

/-- The key of the first entry does not come again. -/
theorem find?_of_ascending {e : κ × β} {l : List (κ × β)} (h : Ascending (e :: l)) :
    find? e.1 l = none := by
  refine Option.eq_none_iff_forall_ne_some.2 fun v hv => ?_
  have hmem := (find?_eq_some_iff (List.pairwise_cons.1 h).2 e.1 v).1 hv
  exact ne_of_ascending h _ hmem rfl

/-- The entries with a key are its binding. -/
theorem filter_key {l : List (κ × β)} (h : Ascending l) (k : κ) :
    l.filter (fun e => e.1 = k) = (find? k l).toList.map (Prod.mk k) := by
  induction l with
  | nil => rfl
  | cons hd tl ih =>
    obtain ⟨a, w⟩ := hd
    have htl := ih (List.pairwise_cons.1 h).2
    have hne := ne_of_ascending h
    rw [List.filter_cons, find?]
    by_cases hk : k = a
    · subst hk
      have hnil : tl.filter (fun e => e.1 = k) = [] :=
        List.filter_eq_nil_iff.2 fun e he => by simpa using hne e he
      simp [hnil]
    · have hk' : ¬a = k := fun e => hk e.symm
      simp [hk, hk', htl]

end Entries

variable [Ord κ]

/-- The table of what `f` makes of the values, without those of which it makes nothing. -/
def filterMap {γ : Type} (t : Table κ β) (f : β → Option γ) : Table κ γ where
  entries := t.entries.filterMap fun e => (f e.2).map (Prod.mk e.1)
  ascending := by
    refine t.ascending.filterMap _ fun a a' hlt b hb b' hb' => ?_
    obtain ⟨v, -, rfl⟩ := Option.map_eq_some_iff.1 hb
    obtain ⟨v', -, rfl⟩ := Option.map_eq_some_iff.1 hb'
    exact hlt

/-! ## Entries and bindings -/

/-- The keys stand in ascending order. -/
theorem keys_ascending (t : Table κ β) : t.keys.Pairwise fun a b => compare a b = .lt := by
  unfold keys
  rw [List.pairwise_map]
  exact t.ascending

theorem keys_nodup [Std.LawfulEqOrd κ] (t : Table κ β) : t.keys.Nodup := by
  refine t.keys_ascending.imp ?_
  intro a b hlt heq
  rw [heq, Std.ReflOrd.compare_self] at hlt
  cases hlt

/-- Tables that bind the same keys list them in the same order. -/
theorem keys_eq_of_mem [Std.LawfulEqOrd κ] [Std.OrientedOrd κ] {γ : Type} {t : Table κ β}
    {u : Table κ γ} (h : ∀ k, k ∈ t.keys ↔ k ∈ u.keys) : t.keys = u.keys := by
  have hperm : t.keys.Perm u.keys :=
    (List.perm_ext_iff_of_nodup t.keys_nodup u.keys_nodup).2 h
  refine hperm.eq_of_pairwise (fun a b _ _ hlt hgt => ?_) t.keys_ascending u.keys_ascending
  rw [Std.OrientedCmp.gt_of_lt hlt] at hgt
  cases hgt

theorem mem_keys_of_entries {t : Table κ β} {before after : List (κ × β)} {k : κ} {v : β}
    (h : t.entries = before ++ (k, v) :: after) : k ∈ t.keys := by
  unfold keys
  rw [h]
  simp

theorem merge_of_isEmpty [Std.LawfulEqOrd κ] [Std.TransOrd κ] {t u : Table κ β} (h : u.isEmpty = true) :
    t.merge u = t := by
  have hnil : u.entries = [] := List.isEmpty_iff.1 h
  unfold merge
  rw [hnil, List.foldl_nil]

variable [DecidableEq κ] [Std.LawfulEqOrd κ]

theorem mem_entries (t : Table κ β) (k : κ) (v : β) : (k, v) ∈ t.entries ↔ t.get? k = some v :=
  (Entries.find?_eq_some_iff t.ascending k v).symm

theorem filter_entries (t : Table κ β) (k : κ) :
    t.entries.filter (fun e => e.1 = k) = (t.get? k).toList.map (Prod.mk k) :=
  Entries.filter_key t.ascending k

theorem mem_keys (t : Table κ β) (k : κ) : k ∈ t.keys ↔ (t.get? k).isSome := by
  unfold keys
  rw [List.mem_map]
  constructor
  · rintro ⟨⟨a, v⟩, he, rfl⟩
    rw [(t.mem_entries a v).1 he]
    rfl
  · intro h
    obtain ⟨v, hv⟩ := Option.isSome_iff_exists.1 h
    exact ⟨(k, v), (t.mem_entries k v).2 hv, rfl⟩

theorem mem_values (t : Table κ β) (v : β) : v ∈ t.values ↔ ∃ k, t.get? k = some v := by
  unfold values
  rw [List.mem_map]
  constructor
  · rintro ⟨⟨k, v⟩, he, rfl⟩
    exact ⟨k, (t.mem_entries k v).1 he⟩
  · rintro ⟨k, hk⟩
    exact ⟨(k, v), (t.mem_entries k v).2 hk, rfl⟩

/-- Among the entries with a property, a key stands once if its binding has the property. -/
theorem count_keys_filter [BEq κ] [LawfulBEq κ] (t : Table κ β) (p : κ × β → Bool) (k : κ) :
    ((t.entries.filter p).map Prod.fst).count k =
      if (t.get? k).any (fun v => p (k, v)) then 1 else 0 := by
  have hnd : ((t.entries.filter p).map Prod.fst).Nodup :=
    t.keys_nodup.sublist (List.filter_sublist.map Prod.fst)
  rw [hnd.count]
  congr 1
  rw [List.mem_map, eq_iff_iff]
  constructor
  · rintro ⟨⟨a, v⟩, he, rfl⟩
    obtain ⟨hm, hp⟩ := List.mem_filter.1 he
    rw [(t.mem_entries a v).1 hm]
    exact hp
  · intro h
    cases hg : t.get? k with
    | none => rw [hg] at h; cases h
    | some v =>
      rw [hg] at h
      exact ⟨(k, v), List.mem_filter.2 ⟨(t.mem_entries k v).2 hg, h⟩, rfl⟩

theorem count_keys [BEq κ] [LawfulBEq κ] (t : Table κ β) (k : κ) :
    t.keys.count k = if (t.get? k).isSome then 1 else 0 := by
  rw [t.keys_nodup.count]
  simp only [t.mem_keys]

@[grind =] theorem mem_keys_erase (t : Table κ β) (k j : κ) :
    j ∈ (t.erase k).keys ↔ j ≠ k ∧ j ∈ t.keys := by
  rw [mem_keys, mem_keys, get?_erase]
  split <;> simp_all

@[grind =] theorem mem_keys_insert [Std.TransOrd κ] (t : Table κ β) (k j : κ) (v : β) :
    j ∈ (t.insert k v).keys ↔ j = k ∨ j ∈ t.keys := by
  rw [mem_keys, mem_keys, get?_insert]
  split <;> simp_all

@[grind =] theorem mem_keys_insertIfNew [Std.TransOrd κ] (t : Table κ β) (k j : κ) (v : β) :
    j ∈ (t.insertIfNew k v).keys ↔ j = k ∨ j ∈ t.keys := by
  rw [mem_keys, mem_keys, get?_insertIfNew]
  split <;> simp_all

/-- Tables with the same bindings are the same. -/
theorem ext_get? [Std.OrientedOrd κ] {t u : Table κ β} (h : ∀ k, t.get? k = u.get? k) : t = u := by
  have hnodup (t : Table κ β) : t.entries.Nodup := by
    have hkeys := t.keys_nodup
    unfold keys List.Nodup at hkeys
    rw [List.pairwise_map] at hkeys
    exact hkeys.imp fun hne heq => hne (congrArg Prod.fst heq)
  have hperm : t.entries.Perm u.entries :=
    (List.perm_ext_iff_of_nodup (hnodup t) (hnodup u)).2 fun ⟨k, v⟩ => by
      rw [mem_entries, mem_entries, h]
  refine Table.ext (hperm.eq_of_pairwise (fun a b _ _ hlt hgt => ?_) t.ascending u.ascending)
  rw [Std.OrientedCmp.gt_of_lt hlt] at hgt
  cases hgt

theorem erase_of_not_contains [Std.OrientedOrd κ] {t : Table κ β} {k : κ}
    (h : ¬t.contains k = true) : t.erase k = t := by
  refine ext_get? fun j => ?_
  rw [get?_erase]
  split
  · rename_i hj
    subst hj
    unfold contains at h
    rw [Bool.not_eq_true, Option.isSome_eq_false_iff, Option.isNone_iff_eq_none] at h
    exact h.symm
  · rfl

/-- Where both tables bind a key, the second one decides. -/
theorem get?_merge [Std.TransOrd κ] (t u : Table κ β) (k : κ) :
    (t.merge u).get? k = (u.get? k).or (t.get? k) := by
  have hu := u.ascending
  unfold merge get? at *
  generalize u.entries = l at hu
  induction l generalizing t with
  | nil => rfl
  | cons e rest ih =>
    obtain ⟨a, v⟩ := e
    rw [List.foldl_cons, ih (t.insert a v) (List.pairwise_cons.1 hu).2, Entries.find?]
    have hinsert : Entries.find? k (t.insert a v).entries = _ := t.get?_insert a k v
    rw [hinsert]
    by_cases hk : k = a
    · subst hk
      have hnone : Entries.find? k rest = none := Entries.find?_of_ascending hu
      rw [hnone, if_pos rfl, if_pos rfl]
      rfl
    · rw [if_neg hk, if_neg hk]
      rfl

/-- Bindings of different keys can be added in any order. -/
theorem insert_comm [Std.TransOrd κ] (t : Table κ β) {j k : κ} (h : j ≠ k) (v w : β) :
    (t.insert j v).insert k w = (t.insert k w).insert j v := by
  refine ext_get? fun i => ?_
  rw [get?_insert, get?_insert, get?_insert, get?_insert]
  by_cases hj : i = j
  · have hk : i ≠ k := fun hk => h (hj.symm.trans hk)
    rw [if_neg hk, if_pos hj, if_pos hj]
  · rw [if_neg hj, if_neg hj]

/-- The bindings of a table can be added one by one, in any order. -/
theorem foldl_insert_of_perm [Std.TransOrd κ] (t u : Table κ β) {l : List (κ × β)}
    (h : l.Perm u.entries) : l.foldl (fun t e => t.insert e.1 e.2) t = t.merge u := by
  unfold merge
  refine h.foldl_eq' (fun a ha b hb t => ?_) t
  by_cases hkey : a.1 = b.1
  · -- the table binds a key once
    have hva := (u.mem_entries a.1 a.2).1 (h.mem_iff.1 ha)
    have hvb := (u.mem_entries b.1 b.2).1 (h.mem_iff.1 hb)
    rw [hkey, hvb] at hva
    rw [Prod.ext hkey (Option.some.inj hva).symm]
  · exact t.insert_comm hkey a.2 b.2

@[simp] theorem get?_filterMap {γ : Type} (t : Table κ β) (f : β → Option γ) (k : κ) :
    (t.filterMap f).get? k = (t.get? k).bind f := by
  refine Option.ext fun v => ?_
  rw [← mem_entries, Option.bind_eq_some_iff]
  simp only [filterMap, List.mem_filterMap, Option.map_eq_some_iff, Prod.mk.injEq, Prod.exists,
    mem_entries]
  constructor
  · rintro ⟨j, w, hw, v, hv, rfl, rfl⟩
    exact ⟨w, hw, hv⟩
  · rintro ⟨w, hw, hv⟩
    exact ⟨k, w, hw, v, hv, rfl, rfl⟩

end Table

end ProcessorBench
