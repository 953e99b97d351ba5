import ProcessorBench.Proofs.Table
import ProcessorBench.Property.Settings

/-!
# What is judged, and when all of it is valid

Settings are judged for a component that supports some properties.  Each supported property is
judged with the value that is set under its name, and each setting that no supported property names
is judged by the descriptor under which it was set.

* `Settings.mem_toList` — a setting is listed exactly if it is found under its name.
* `Descriptor.validate_valid_iff` — what a descriptor wants of a value, or of there being none.
* `Settings.judges_all` — which verdicts there are, in which order, that no setting is left out, and
  that all are valid exactly if every descriptor has what it wants.
-/

set_option autoImplicit false

namespace ProcessorBench

/-! ## What a descriptor wants -/

namespace Descriptor

/-- The value is one of those that are allowed, if any are named, and the validator has nothing
against it, if there is one. -/
def Accepts (d : Descriptor) (input : Text) : Prop :=
  (d.allowed = [] ∨ input ∈ d.allowed) ∧
    ∀ validator, d.validator = some validator → (validator d.name input).valid = true

theorem judge_valid_iff {d : Descriptor} {input : Text} :
    (d.judge input).valid = true ↔ d.Accepts input := by
  have hallowed : (!d.allowed.isEmpty && !d.allowed.contains input) = true ↔
      ¬(d.allowed = [] ∨ input ∈ d.allowed) := by
    simp
  unfold judge Accepts
  split
  · rename_i h
    simp [hallowed.1 h, Verdict.reject]
  · rename_i h
    have hinput : d.allowed = [] ∨ input ∈ d.allowed :=
      Decidable.byContradiction fun hnot => h (hallowed.2 hnot)
    cases d.validator with
    | none => simp [hinput, Verdict.accept]
    | some validator => simp [hinput]

/-- **A value, or the default, must be accepted; if there is neither, none may be required.** -/
theorem validate_valid_iff {d : Descriptor} {value : Option Text} :
    (d.validate value).valid = true ↔
      (∃ input, value.or d.defaultValue = some input ∧ d.Accepts input) ∨
        value.or d.defaultValue = none ∧ d.required = false := by
  unfold validate
  cases value.or d.defaultValue with
  | some input => simp [judge_valid_iff]
  | none => cases d.required <;> simp [Verdict.accept, Verdict.reject]

end Descriptor

namespace Settings

variable {s : Settings}

/-! ## Settings in a row -/

theorem names_toList (s : Settings) :
    s.toList.map (fun e => e.descriptor.name) = s.table.keys := by
  unfold toList Table.values Table.keys
  rw [List.map_map]
  exact List.map_congr_left fun e he => s.named e he

/-- The settings are listed by ascending name. -/
theorem toList_ascending (s : Settings) :
    s.toList.Pairwise fun e e' => compare e.descriptor.name e'.descriptor.name = .lt := by
  have hkeys := s.table.keys_ascending
  rw [← s.names_toList, List.pairwise_map] at hkeys
  exact hkeys

/-- A setting is listed exactly if it is found under its name. -/
theorem mem_toList {e : Setting} : e ∈ s.toList ↔ s.find? e.descriptor.name = some e := by
  unfold toList find?
  rw [Table.mem_values]
  constructor
  · rintro ⟨name, hname⟩
    have hnamed := s.named _ ((s.table.mem_entries name e).2 hname)
    rwa [hnamed]
  · exact fun h => ⟨_, h⟩

/-- What is found under a name is named so. -/
theorem name_of_find? {name : Text} {e : Setting} (h : s.find? name = some e) :
    e.descriptor.name = name :=
  s.named _ ((s.table.mem_entries name e).2 h)

theorem value?_of_mem {e : Setting} (h : e ∈ s.toList) :
    s.value? e.descriptor.name = some e.value := by
  unfold value?
  rw [mem_toList.1 h]
  rfl

theorem value?_eq_none {name : Text} (h : ∀ e ∈ s.toList, e.descriptor.name ≠ name) :
    s.value? name = none := by
  unfold value?
  rw [Option.map_eq_none_iff, Option.eq_none_iff_forall_ne_some]
  intro e he
  have hname := name_of_find? he
  exact h e (mem_toList.2 (by rw [hname, he])) hname

/-- No two settings have the same name. -/
theorem names_nodup (s : Settings) : (s.toList.map fun e => e.descriptor.name).Nodup := by
  rw [names_toList]
  exact s.table.keys_nodup

theorem eq_of_name {e e' : Setting} (h : e ∈ s.toList) (h' : e' ∈ s.toList)
    (hname : e.descriptor.name = e'.descriptor.name) : e = e' := by
  have hfind := mem_toList.1 h
  rw [hname, mem_toList.1 h'] at hfind
  exact (Option.some.inj hfind).symm

/-! ## What is judged -/

variable {supported : List Descriptor}

/-- The settings that none of the properties names. -/
def unsupported (s : Settings) (supported : List Descriptor) : List Setting :=
  s.toList.filter fun e => !supported.any fun d => d.name = e.descriptor.name

/-- Each property with the value that it is set to, and then each setting that none of them
names. -/
def judged (s : Settings) (supported : List Descriptor) : List (Descriptor × Option Text) :=
  supported.map (fun d => (d, s.value? d.name)) ++
    (s.unsupported supported).map fun e => (e.descriptor, some e.value)

theorem mem_unsupported {e : Setting} :
    e ∈ s.unsupported supported ↔ e ∈ s.toList ∧ ∀ d ∈ supported, d.name ≠ e.descriptor.name := by
  unfold unsupported
  simp

theorem unsupported_sublist (s : Settings) (supported : List Descriptor) :
    (s.unsupported supported).Sublist s.toList :=
  List.filter_sublist

theorem validate_eq (s : Settings) (supported : List Descriptor) :
    s.validate supported = (s.judged supported).map fun j => j.1.validate j.2 := by
  unfold validate judged unsupported
  rw [List.map_append, List.map_map, List.map_map]
  rfl

/-- The verdict on a supported property stands where the property stands. -/
theorem getElem?_validate {i : Nat} {d : Descriptor} (h : supported[i]? = some d) :
    (s.validate supported)[i]? = some (d.validate (s.value? d.name)) := by
  have hi : i < supported.length := (List.getElem?_eq_some_iff.1 h).1
  unfold validate
  rw [List.getElem?_append_left (by simpa using hi), List.getElem?_map, h]
  rfl

theorem names_judged (s : Settings) (supported : List Descriptor) :
    (s.judged supported).map (fun j => j.1.name) =
      supported.map (fun d => d.name) ++
        (s.unsupported supported).map fun e => e.descriptor.name := by
  unfold judged
  rw [List.map_append, List.map_map, List.map_map]
  rfl

/-- A setting is judged with each property of its name, and by its own descriptor if there is
none. -/
theorem count_names_judged (supported : List Descriptor) {e : Setting} (h : e ∈ s.toList) :
    ((s.judged supported).map fun j => j.1.name).count e.descriptor.name =
      max 1 ((supported.map fun d => d.name).count e.descriptor.name) := by
  have hnodup := s.names_nodup.sublist ((s.unsupported_sublist supported).map _)
  have hrest : e.descriptor.name ∈ (s.unsupported supported).map (fun e => e.descriptor.name) ↔
      e.descriptor.name ∉ supported.map fun d => d.name := by
    rw [List.mem_map, List.mem_map]
    constructor
    · rintro ⟨e', he', hname⟩ ⟨d, hd, hdname⟩
      exact (mem_unsupported.1 he').2 d hd (hdname.trans hname.symm)
    · intro hnone
      exact ⟨e, mem_unsupported.2 ⟨h, fun d hd hname => hnone ⟨d, hd, hname⟩⟩, rfl⟩
  rw [names_judged, List.count_append, hnodup.count]
  by_cases hname : e.descriptor.name ∈ supported.map fun d => d.name
  · have hpos := List.count_pos_iff.2 hname
    rw [if_neg fun hmem => hrest.1 hmem hname]
    omega
  · rw [if_pos (hrest.2 hname), List.count_eq_zero.2 hname]
    rfl

/-- A setting is judged with the value that it has. -/
theorem value_of_mem_judged {e : Setting} (h : e ∈ s.toList) {j : Descriptor × Option Text}
    (hj : j ∈ s.judged supported) (hname : j.1.name = e.descriptor.name) : j.2 = some e.value := by
  unfold judged at hj
  rcases List.mem_append.1 hj with hj | hj
  · obtain ⟨d, -, rfl⟩ := List.mem_map.1 hj
    show s.value? d.name = some e.value
    rw [show d.name = e.descriptor.name from hname, value?_of_mem h]
  · obtain ⟨e', he', rfl⟩ := List.mem_map.1 hj
    rw [eq_of_name (mem_unsupported.1 he').1 h hname]

/-- What settings are judged by, and what comes of it. -/
structure Judges (s : Settings) (supported : List Descriptor) : Prop where
  /-- There is one verdict for each judgement, in their order. -/
  verdicts : s.validate supported = (s.judged supported).map fun j => j.1.validate j.2
  /-- Each supported property is judged, in their order, then each setting that none of them names,
  and nothing else. -/
  order : s.judged supported = supported.map (fun d => (d, s.value? d.name)) ++
    (s.unsupported supported).map fun e => (e.descriptor, some e.value)
  /-- Those settings stand by ascending name. -/
  ascending : (s.unsupported supported).Pairwise fun e e' =>
    compare e.descriptor.name e'.descriptor.name = .lt
  rest : ∀ e, e ∈ s.unsupported supported ↔
    e ∈ s.toList ∧ ∀ d ∈ supported, d.name ≠ e.descriptor.name
  /-- The value of a supported property is that of the setting with its name. -/
  value : ∀ d ∈ supported,
    (∀ e ∈ s.toList, e.descriptor.name = d.name → s.value? d.name = some e.value) ∧
      ((∀ e ∈ s.toList, e.descriptor.name ≠ d.name) → s.value? d.name = none)
  /-- No setting is left out, and where no two properties have the same name none is judged twice;
  it is always judged with the value that it has. -/
  once : ∀ e ∈ s.toList,
    1 ≤ ((s.judged supported).map fun j => j.1.name).count e.descriptor.name ∧
      ((supported.map fun d => d.name).Nodup →
        ((s.judged supported).map fun j => j.1.name).count e.descriptor.name = 1) ∧
      ∀ j ∈ s.judged supported, j.1.name = e.descriptor.name → j.2 = some e.value
  /-- All is valid exactly if every supported property has a value or a default that it accepts, or
  has neither and is not required, and every other setting is accepted by its own descriptor. -/
  allValid : Verdict.allValid (s.validate supported) = true ↔
    (∀ d ∈ supported, (∃ input, s.valueOf d = some input ∧ d.Accepts input) ∨
      s.valueOf d = none ∧ d.required = false) ∧
    ∀ e ∈ s.toList, (∀ d ∈ supported, d.name ≠ e.descriptor.name) → e.descriptor.Accepts e.value

theorem allValid_validate_iff (s : Settings) (supported : List Descriptor) :
    Verdict.allValid (s.validate supported) = true ↔
      (∀ d ∈ supported, (d.validate (s.value? d.name)).valid = true) ∧
        ∀ e ∈ s.unsupported supported, e.descriptor.Accepts e.value := by
  have hset : ∀ e : Setting,
      (e.descriptor.validate (some e.value)).valid = true ↔ e.descriptor.Accepts e.value :=
    fun e => Descriptor.judge_valid_iff
  unfold Verdict.allValid
  rw [validate_eq, List.all_map, judged, List.all_append, Bool.and_eq_true, List.all_map,
    List.all_map, List.all_eq_true, List.all_eq_true]
  exact and_congr Iff.rfl (forall₂_congr fun e _ => hset e)

/-- **Every setting is judged, by the descriptor that counts, and all is valid exactly if every
descriptor has what it wants.** -/
theorem judges_all (s : Settings) (supported : List Descriptor) : s.Judges supported where
  verdicts := s.validate_eq supported
  order := rfl
  ascending := s.toList_ascending.sublist (s.unsupported_sublist supported)
  rest _ := mem_unsupported
  value d _ := ⟨fun e he hname => hname ▸ value?_of_mem he, value?_eq_none⟩
  once e he := by
    have hcount := count_names_judged supported he
    refine ⟨by omega, fun hnodup => ?_, fun j hj => value_of_mem_judged he hj⟩
    rw [hcount, hnodup.count]
    split <;> rfl
  allValid := by
    rw [allValid_validate_iff]
    refine and_congr (forall₂_congr fun d _ => Descriptor.validate_valid_iff) ?_
    simp only [mem_unsupported, and_imp]

end Settings

end ProcessorBench
