import ProcessorBench.Text

/-!
# Ordered tables

A `Table` maps keys to values and lists its entries by ascending key.  That the keys ascend
strictly is a field of the type, so no table binds a key twice, and two tables with the same
bindings are the same value.  The operations are defined on plain lists of entries in
`Table.Entries`; the view through which a table is seen is `Table.get?`.
-/

namespace ProcessorBench

variable {κ β : Type}

namespace Table.Entries

/-- The entries stand in ascending order of their keys. -/
def Ascending [Ord κ] (l : List (κ × β)) : Prop := l.Pairwise fun a b => compare a.1 b.1 = .lt

def find? [DecidableEq κ] (k : κ) : List (κ × β) → Option β
  | [] => none
  | (a, v) :: rest => if k = a then some v else find? k rest

/-- Binds the key in one pass: before the first larger key, or in place of an equal one. -/
def put [Ord κ] (k : κ) (v : β) : List (κ × β) → List (κ × β)
  | [] => [(k, v)]
  | (a, w) :: rest =>
    match compare k a with
    | .lt => (k, v) :: (a, w) :: rest
    | .eq => (k, v) :: rest
    | .gt => (a, w) :: put k v rest

def drop [DecidableEq κ] (k : κ) (l : List (κ × β)) : List (κ × β) := l.filter fun e => e.1 ≠ k

theorem mem_put [Ord κ] {k : κ} {v : β} {e : κ × β} {l : List (κ × β)} (h : e ∈ put k v l) :
    e = (k, v) ∨ e ∈ l := by
  induction l with
  | nil => simpa [put] using h
  | cons hd tl ih =>
    rw [put] at h
    split at h <;> grind

theorem find?_drop [DecidableEq κ] (k j : κ) (l : List (κ × β)) :
    find? j (drop k l) = if j = k then none else find? j l := by
  induction l with
  | nil => simp [drop, find?]
  | cons hd tl ih =>
    simp only [drop, List.filter_cons, find?] at *
    split <;> grind [find?]

theorem Ascending.drop [Ord κ] [DecidableEq κ] {l : List (κ × β)} (h : Ascending l) (k : κ) :
    Ascending (drop k l) :=
  List.Pairwise.filter _ h

theorem find?_put [Ord κ] [DecidableEq κ] [Std.LawfulEqOrd κ] (k j : κ) (v : β) (l : List (κ × β)) :
    find? j (put k v l) = if j = k then some v else find? j l := by
  induction l with
  | nil => simp [put, find?]
  | cons hd tl ih =>
    obtain ⟨a, w⟩ := hd
    simp only [put]
    cases hc : compare k a with
    | lt => simp [find?]
    | eq =>
      have : k = a := Std.LawfulEqOrd.eq_of_compare hc
      subst this
      simp only [find?]
      split <;> rfl
    | gt =>
      have : k ≠ a := by
        intro h
        rw [h, Std.ReflOrd.compare_self] at hc
        cases hc
      simp only [find?, ih]
      split <;> split <;> simp_all

theorem Ascending.put [Ord κ] [Std.LawfulEqOrd κ] [Std.TransOrd κ] {l : List (κ × β)}
    (h : Ascending l) (k : κ) (v : β) : Ascending (put k v l) := by
  induction l with
  | nil => simp [Entries.put, Ascending]
  | cons hd tl ih =>
    obtain ⟨a, w⟩ := hd
    obtain ⟨hhd, htl⟩ := List.pairwise_cons.1 h
    simp only [Entries.put]
    cases hc : compare k a with
    | lt =>
      refine List.pairwise_cons.2 ⟨fun e he => ?_, h⟩
      rcases List.mem_cons.1 he with rfl | he
      · exact hc
      · exact Std.TransCmp.lt_trans hc (hhd e he)
    | eq =>
      have : k = a := Std.LawfulEqOrd.eq_of_compare hc
      subst this
      exact List.pairwise_cons.2 ⟨hhd, htl⟩
    | gt =>
      refine List.pairwise_cons.2 ⟨fun e he => ?_, ih htl⟩
      rcases mem_put he with rfl | he
      · exact Std.OrientedCmp.lt_of_gt hc
      · exact hhd e he

end Table.Entries

/-- A finite map whose entries stand in ascending order of their keys. -/
@[ext] structure Table (κ β : Type) [Ord κ] where
  /-- The entries, by ascending key. -/
  entries : List (κ × β)
  /-- No key stands twice, and each stands before all larger ones. -/
  ascending : Table.Entries.Ascending entries := by exact List.Pairwise.nil

namespace Table

variable [Ord κ] [DecidableEq κ]

instance : EmptyCollection (Table κ β) := ⟨{ entries := [] }⟩

instance : Inhabited (Table κ β) := ⟨∅⟩

instance [DecidableEq β] : DecidableEq (Table κ β) := fun s t =>
  if h : s.entries = t.entries then isTrue (Table.ext h) else isFalse fun e => h (e ▸ rfl)

/-- The value that the key is bound to. -/
def get? (t : Table κ β) (k : κ) : Option β := Entries.find? k t.entries

/-- The table binds the key. -/
def contains (t : Table κ β) (k : κ) : Bool := (t.get? k).isSome

def isEmpty (t : Table κ β) : Bool := t.entries.isEmpty

def keys (t : Table κ β) : List κ := t.entries.map Prod.fst

def values (t : Table κ β) : List β := t.entries.map Prod.snd

/-- The table without a binding of the key. -/
def erase (t : Table κ β) (k : κ) : Table κ β where
  entries := Entries.drop k t.entries
  ascending := t.ascending.drop k

@[simp, grind =] theorem get?_empty (k : κ) : (∅ : Table κ β).get? k = none := rfl

@[simp, grind =] theorem get?_erase (t : Table κ β) (k j : κ) :
    (t.erase k).get? j = if j = k then none else t.get? j :=
  Entries.find?_drop k j t.entries

variable [Std.LawfulEqOrd κ] [Std.TransOrd κ]

/-- Binds the key to the value, whether it was bound before or not. -/
def insert (t : Table κ β) (k : κ) (v : β) : Table κ β where
  entries := Entries.put k v t.entries
  ascending := t.ascending.put k v

/-- Binds the key to the value unless it is bound already. -/
def insertIfNew (t : Table κ β) (k : κ) (v : β) : Table κ β :=
  if t.contains k then t else t.insert k v

/-- Adds all bindings of `u`; where both tables bind a key, `u` decides. -/
def merge (t u : Table κ β) : Table κ β := u.entries.foldl (fun t e => t.insert e.1 e.2) t

/-- The table of the given bindings; the last one of a key decides. -/
def ofList (l : List (κ × β)) : Table κ β := l.foldl (fun t e => t.insert e.1 e.2) ∅

@[simp, grind =] theorem get?_insert (t : Table κ β) (k j : κ) (v : β) :
    (t.insert k v).get? j = if j = k then some v else t.get? j :=
  Entries.find?_put k j v t.entries

@[simp, grind =] theorem get?_insertIfNew (t : Table κ β) (k j : κ) (v : β) :
    (t.insertIfNew k v).get? j = if j = k then some ((t.get? k).getD v) else t.get? j := by
  unfold insertIfNew contains
  cases h : t.get? k <;> grind

end Table

end ProcessorBench
