import ProcessorBench.Text

/-!
# Arguments for hooks

Whoever calls hooks offers them arguments of several types.  Only the first argument of a type is
ever found; one that was offered for reading is not found by a hook that wants to change it, even
if a later one of the type could be changed.
-/

namespace ProcessorBench

/-- The types of argument that can be offered, with their values and the texts that name them. -/
structure Signature where
  Kind : Type
  Value : Kind → Type
  typeName : Kind → Text
  [decEq : DecidableEq Kind]

attribute [instance] Signature.decEq

/-- An argument, and whether it was offered for reading only. -/
structure Argument (S : Signature) where
  kind : S.Kind
  value : S.Value kind
  readOnly : Bool := false

/-- The arguments on offer, in the order in which they were added. -/
abbrev Arguments (S : Signature) := List (Argument S)

namespace Arguments

variable {S : Signature}

def add (args : Arguments S) (kind : S.Kind) (value : S.Value kind) (readOnly : Bool) :
    Arguments S :=
  args ++ [⟨kind, value, readOnly⟩]

/-- The first argument of the kind, and whether it is for reading only. -/
def first? (kind : S.Kind) : Arguments S → Option (S.Value kind × Bool)
  | [] => none
  | a :: rest => if h : a.kind = kind then some (h ▸ a.value, a.readOnly) else first? kind rest

/-- What a hook finds that wants to read an argument of the kind. -/
def forReading? (args : Arguments S) (kind : S.Kind) : Option (S.Value kind) :=
  (args.first? kind).map Prod.fst

/-- What a hook finds that wants to change an argument of the kind. -/
def forChanging? (args : Arguments S) (kind : S.Kind) : Option (S.Value kind) :=
  match args.first? kind with
  | some (value, false) => some value
  | _ => none

/-- The arguments with another value for the first one of the kind. -/
def set (kind : S.Kind) (value : S.Value kind) : Arguments S → Arguments S
  | [] => []
  | a :: rest =>
    if h : a.kind = kind then { a with value := h ▸ value } :: rest else a :: set kind value rest

end Arguments

end ProcessorBench
