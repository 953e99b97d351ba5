import ProcessorBench.Proofs.Property.Judgement

/-!
# Settings that change

Settings are a map from names in which the last word counts.  Properties are set and removed, and
the annotation data are exchanged, in any order and any number of times.

* `Settings.Stands` — a change was made, and no later one is about the same.
* `Settings.after_iff` — what one change decides is decided by the last change that is about it.
* `Settings.Told` — what settings answer, in whatever way they are asked.
* `Settings.last_word_counts` — settings answer what the last changes say.
-/

set_option autoImplicit false

namespace ProcessorBench

namespace Settings

/-- A change of the settings. -/
inductive Change where
  | set (d : Descriptor) (value : Text)
  | remove (name : Text)
  | annotate (annotationData : Option Text)

namespace Change

/-- The change is about the property with the given name. -/
def Concerns (name : Text) : Change → Prop
  | set d _ => d.name = name
  | remove removed => removed = name
  | annotate _ => False

/-- The change is about the annotation data. -/
def Annotates : Change → Prop
  | set _ _ | remove _ => False
  | annotate _ => True

end Change

/-- The settings that a change leaves. -/
def change (s : Settings) : Change → Settings
  | .set d value => s.set d value
  | .remove name => (s.remove name).2
  | .annotate annotationData => s.annotate annotationData

/-- The settings after a row of changes. -/
def after (s : Settings) (changes : List Change) : Settings := changes.foldl change s

/-- The change is one of the row, and no later one is about the same. -/
def Stands (about : Change → Prop) (c : Change) (changes : List Change) : Prop :=
  ∃ before later, changes = before ++ c :: later ∧ ∀ d ∈ later, ¬about d

theorem stands_cons {about : Change → Prop} {c d : Change} {changes : List Change} :
    Stands about c (d :: changes) ↔
      (d = c ∧ ∀ d' ∈ changes, ¬about d') ∨ Stands about c changes := by
  constructor
  · rintro ⟨before, later, hsplit, hlater⟩
    cases before with
    | nil =>
      obtain ⟨rfl, rfl⟩ := List.cons.inj hsplit
      exact .inl ⟨rfl, hlater⟩
    | cons first before =>
      obtain ⟨-, rfl⟩ := List.cons.inj hsplit
      exact .inr ⟨before, later, rfl, hlater⟩
  · rintro (⟨rfl, hlater⟩ | ⟨before, later, rfl, hlater⟩)
    · exact ⟨[], changes, rfl, hlater⟩
    · exact ⟨d :: before, later, rfl, hlater⟩

/-- **The last word counts.**  If one change brings a property of the settings about, and it is kept
by all changes that are not about it, it holds after a row of changes exactly if that change was
made and none about it came later, or it held at first and none about it was made. -/
theorem after_iff {P : Settings → Prop} {about : Change → Prop} {c : Change}
    (hstep : ∀ s d, P (s.change d) ↔ d = c ∨ P s ∧ ¬about d) (s : Settings)
    (changes : List Change) :
    P (s.after changes) ↔ Stands about c changes ∨ P s ∧ ∀ d ∈ changes, ¬about d := by
  induction changes generalizing s with
  | nil =>
    constructor
    · exact fun h => .inr ⟨h, nofun⟩
    · rintro (⟨before, later, hsplit, -⟩ | ⟨h, -⟩)
      · simp at hsplit
      · exact h
  | cons d rest ih =>
    have hrest : P (s.after (d :: rest)) ↔
        Stands about c rest ∨ P (s.change d) ∧ ∀ d' ∈ rest, ¬about d' := ih (s.change d)
    rw [hrest, hstep, stands_cons, List.forall_mem_cons, or_and_right, and_assoc, or_left_comm,
      or_assoc]

/-! ## What one change does -/

variable {s : Settings} {name : Text}

theorem find?_set (s : Settings) (d : Descriptor) (value name : Text) :
    (s.set d value).find? name = if name = d.name then some ⟨d, value⟩ else s.find? name :=
  s.table.get?_insert d.name name ⟨d, value⟩

theorem find?_remove (s : Settings) (removed name : Text) :
    (s.remove removed).2.find? name = if name = removed then none else s.find? name :=
  s.table.get?_erase removed name

/-- A change leaves the settings of all other names alone. -/
theorem find?_change_of_not_concerns {c : Change} (h : ¬c.Concerns name) :
    (s.change c).find? name = s.find? name := by
  cases c with
  | set d value =>
    have hne : name ≠ d.name := fun he => h he.symm
    rw [change, find?_set, if_neg hne]
  | remove removed =>
    have hne : name ≠ removed := fun he => h he.symm
    rw [change, find?_remove, if_neg hne]
  | annotate annotationData => rfl

theorem annotationData_change_of_not_annotates {c : Change} (h : ¬c.Annotates) :
    (s.change c).annotationData = s.annotationData := by
  cases c with
  | set d value => rfl
  | remove removed => rfl
  | annotate annotationData => exact absurd trivial h

theorem find?_change_eq_some_iff {e : Setting} (s : Settings) (c : Change) :
    (s.change c).find? e.descriptor.name = some e ↔
      c = .set e.descriptor e.value ∨
        s.find? e.descriptor.name = some e ∧ ¬c.Concerns e.descriptor.name := by
  obtain ⟨descriptor, value⟩ := e
  cases c with
  | set d v =>
    rw [change, find?_set]
    by_cases hname : d.name = descriptor.name
    · simp [Change.Concerns, hname]
    · have hne : ¬d = descriptor := fun he => hname (congrArg _ he)
      simp [Change.Concerns, hname, Ne.symm hname, hne]
  | remove removed =>
    rw [change, find?_remove]
    by_cases hname : removed = descriptor.name
    · simp [Change.Concerns, hname]
    · simp [Change.Concerns, hname, Ne.symm hname]
  | annotate annotationData => simp [change, annotate, find?, Change.Concerns]

theorem find?_change_eq_none_iff (s : Settings) (c : Change) :
    (s.change c).find? name = none ↔
      c = .remove name ∨ s.find? name = none ∧ ¬c.Concerns name := by
  cases c with
  | set d v =>
    rw [change, find?_set]
    by_cases hname : d.name = name
    · simp [Change.Concerns, hname]
    · simp [Change.Concerns, hname, Ne.symm hname]
  | remove removed =>
    rw [change, find?_remove]
    by_cases hname : removed = name
    · simp [hname]
    · simp [Change.Concerns, hname, Ne.symm hname]
  | annotate annotationData => simp [change, annotate, find?, Change.Concerns]

theorem annotationData_change_eq_iff {annotationData : Option Text} (s : Settings) (c : Change) :
    (s.change c).annotationData = annotationData ↔
      c = .annotate annotationData ∨ s.annotationData = annotationData ∧ ¬c.Annotates := by
  cases c with
  | set d v => simp [change, set, Change.Annotates]
  | remove removed => simp [change, remove, Change.Annotates]
  | annotate new => simp [change, annotate, Change.Annotates]

/-! ## Ways to ask -/

theorem remove_eq_true_iff : (s.remove name).1 = true ↔ ∃ e, s.find? name = some e :=
  Option.isSome_iff_exists

/-- Going over the settings in a row finds what is found under the name. -/
theorem toList_find? (s : Settings) (name : Text) :
    s.toList.find? (fun e => e.descriptor.name = name) = s.find? name := by
  cases hfind : s.toList.find? fun e => e.descriptor.name = name with
  | none =>
    symm
    rw [Option.eq_none_iff_forall_ne_some]
    intro e he
    have hname := name_of_find? he
    have hmem : e ∈ s.toList := mem_toList.2 (by rw [hname, he])
    simpa [hname] using List.find?_eq_none.1 hfind e hmem
  | some e =>
    have hname : e.descriptor.name = name := by simpa using List.find?_some hfind
    have hmem := mem_toList.1 (List.mem_of_find?_eq_some hfind)
    rw [← hname, hmem]

/-- What settings answer, in whatever way they are asked. -/
structure Told (s : Settings) : Prop where
  /-- They are listed by ascending name. -/
  ascending : s.toList.Pairwise fun e e' => compare e.descriptor.name e'.descriptor.name = .lt
  /-- What is listed is what is found under its name. -/
  listed : ∀ e, e ∈ s.toList ↔ s.find? e.descriptor.name = some e
  /-- Going over the list finds it, too. -/
  scanned : ∀ name, s.toList.find? (fun e => e.descriptor.name = name) = s.find? name
  named : ∀ name e, s.find? name = some e → e.descriptor.name = name
  /-- By its name and by any descriptor with that name, a property has the value that it is set
  to. -/
  value : ∀ name e, s.find? name = some e →
    s.value? name = some e.value ∧ ∀ d : Descriptor, d.name = name → s.valueOf d = some e.value
  /-- A property that is not set has no value by its name, and its default by a descriptor. -/
  unset : ∀ name, s.find? name = none →
    s.value? name = none ∧ ∀ d : Descriptor, d.name = name → s.valueOf d = d.defaultValue
  /-- To remove a property answers whether it was set. -/
  removed : ∀ name, (s.remove name).1 = true ↔ ∃ e, s.find? name = some e

theorem told (s : Settings) : s.Told where
  ascending := s.toList_ascending
  listed _ := mem_toList
  scanned := s.toList_find?
  named _ _ := name_of_find?
  value name e he := by
    have hvalue : s.value? name = some e.value := by rw [value?, he]; rfl
    refine ⟨hvalue, fun d hd => ?_⟩
    rw [valueOf, hd, hvalue, Option.some_or]
  unset name hnone := by
    have hvalue : s.value? name = none := by rw [value?, hnone]; rfl
    refine ⟨hvalue, fun d hd => ?_⟩
    rw [valueOf, hd, hvalue, Option.none_or]
  removed _ := remove_eq_true_iff

/-- **In settings, the last word counts.**  Whatever they are at first and however they are changed,
a setting is found under its name exactly if it was set, with this descriptor and this value, and no
later change is about the name, or it was there at first and no change is about the name; nothing is
found exactly if the name was removed, and nothing about it came later, or was never set.  The
annotation data are those that were given last.  All ways to ask for a property agree, and a change
leaves alone all that it is not about. -/
theorem last_word_counts (s : Settings) (changes : List Change) :
    let t := s.after changes
    (∀ e : Setting, t.find? e.descriptor.name = some e ↔
      Stands (Change.Concerns e.descriptor.name) (.set e.descriptor e.value) changes ∨
        s.find? e.descriptor.name = some e ∧ ∀ c ∈ changes, ¬c.Concerns e.descriptor.name) ∧
    (∀ name, t.find? name = none ↔
      Stands (Change.Concerns name) (.remove name) changes ∨
        s.find? name = none ∧ ∀ c ∈ changes, ¬c.Concerns name) ∧
    (∀ annotationData, t.annotationData = annotationData ↔
      Stands Change.Annotates (.annotate annotationData) changes ∨
        s.annotationData = annotationData ∧ ∀ c ∈ changes, ¬c.Annotates) ∧
    t.Told ∧
    (∀ c name, ¬c.Concerns name → (t.change c).find? name = t.find? name) ∧
    (∀ c : Change, ¬c.Annotates → (t.change c).annotationData = t.annotationData) ∧
    ∀ annotationData, (t.annotate annotationData).toList = t.toList := by
  intro t
  refine ⟨fun e => ?_, fun name => ?_, fun annotationData => ?_, t.told, ?_, ?_, fun _ => rfl⟩
  · exact after_iff (P := fun s => s.find? e.descriptor.name = some e) find?_change_eq_some_iff s
      changes
  · exact after_iff (P := fun s => s.find? name = none) find?_change_eq_none_iff s changes
  · exact after_iff (P := fun s => s.annotationData = annotationData) annotationData_change_eq_iff s
      changes
  · exact fun c name => find?_change_of_not_concerns
  · exact fun c => annotationData_change_of_not_annotates

end Settings

end ProcessorBench
