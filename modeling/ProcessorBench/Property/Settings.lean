import ProcessorBench.Property.Descriptor
import ProcessorBench.Table

/-!
# Settings

The values that the properties of a component were set to, each with the descriptor under which it
was set, by the names of the properties.  The annotation data stand beside them and have no name.
-/

namespace ProcessorBench

/-- A value with the descriptor under which it was set. -/
structure Setting where
  descriptor : Descriptor
  value : Text

theorem Setting.named_empty :
    ∀ e ∈ (∅ : Table Text Setting).entries, e.2.descriptor.name = e.1 := nofun

structure Settings where
  /-- The settings, by name of the property. -/
  table : Table Text Setting := ∅
  annotationData : Option Text := none
  /-- Each setting stands under the name of its descriptor. -/
  named : ∀ e ∈ table.entries, e.2.descriptor.name = e.1 := by exact Setting.named_empty

namespace Settings

/-- The setting of the named property. -/
def find? (s : Settings) (name : Text) : Option Setting := s.table.get? name

/-- The value that the named property was set to. -/
def value? (s : Settings) (name : Text) : Option Text := (s.find? name).map (·.value)

/-- The value that the property was set to, or else the default of the given descriptor. -/
def valueOf (s : Settings) (d : Descriptor) : Option Text := (s.value? d.name).or d.defaultValue

/-- Sets the property to the value and forgets how it was described before. -/
def set (s : Settings) (d : Descriptor) (value : Text) : Settings where
  table := s.table.insert d.name ⟨d, value⟩
  annotationData := s.annotationData
  named e he := by
    rcases Table.Entries.mem_put he with rfl | he
    · rfl
    · exact s.named e he

/-- Forgets the named property and tells whether it was set. -/
def remove (s : Settings) (name : Text) : Bool × Settings :=
  (s.table.contains name,
    { table := s.table.erase name
      annotationData := s.annotationData
      named := fun e he => s.named e (List.mem_filter.1 he).1 })

def annotate (s : Settings) (annotationData : Option Text) : Settings := { s with annotationData }

/-- Settings from a list; of several with one name the first one counts. -/
def ofList (l : List Setting) (annotationData : Option Text) : Settings :=
  l.foldl (fun s e => if s.table.contains e.descriptor.name then s else s.set e.descriptor e.value)
    { annotationData := annotationData }

/-- The settings, by ascending name. -/
def toList (s : Settings) : List Setting := s.table.values

/-- Judges a component with these properties: each property that it supports, in their order, and
then each setting that it does not support, by name. -/
def validate (s : Settings) (supported : List Descriptor) : List Verdict :=
  (supported.map fun d => d.validate (s.value? d.name)) ++
    (s.toList.filter fun e => !supported.any fun d => d.name = e.descriptor.name).map fun e =>
      e.descriptor.validate (some e.value)

end Settings

end ProcessorBench
