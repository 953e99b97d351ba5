import ProcessorBench.Session.Basic

/-!
# Taking, making and changing flow files

The operations of a session that give the caller a flow file or its content.  Each change makes a
new version, keeps the number, and records one event; a change that has nothing to change records
none.
-/

namespace ProcessorBench

/-- Content that is still to be read. -/
inductive Stream where
  | readable (bytes : List UInt8)
  /-- Reading it fails. -/
  | broken
  deriving DecidableEq, Repr, Inhabited

/-- Changes a content, or gives up. -/
abbrev Writer := List UInt8 → Except Error (List UInt8)

namespace Scope

/-- The attributes that a flow file has from the start. -/
def coreAttributes (id : UInt64) (uuid : Text) : Attributes :=
  .ofList [(Attributes.filename, Text.decimal id.toNat), (Attributes.path, "target"),
    (Attributes.uuid, uuid)]

/-- Makes an empty flow file. -/
def create (s : Scope) : FlowFile × Scope :=
  let (id, supply) := s.pool.supply.takeId
  let (uuid, supply) := supply.takeUuid
  let (content, supply) := supply.takeBuffer []
  let (entryDate, supply) := supply.readClock
  let f : FlowFile := { id, attributes := coreAttributes id uuid, content, entryDate }
  (f, { session := (s.session.hold f).record .create id, pool := { s.pool with supply } })

/-- Makes an empty flow file with the attributes of the parent, but with an identifier of its
own. -/
def createChild (s : Scope) (parent : FlowFile) : Except Error FlowFile × Scope :=
  s.withHeld parent fun h =>
    let (id, supply) := s.pool.supply.takeId
    let (uuid, supply) := supply.takeUuid
    let (content, supply) := supply.takeBuffer []
    let (entryDate, supply) := supply.readClock
    let attributes := h.current.attributes.insert Attributes.uuid uuid
    let f : FlowFile := { id, attributes, content, entryDate }
    let details := Text.join ["child of ", Text.decimal parent.id.toNat]
    (.ok f, { session := (s.session.hold f).record .create id details,
              pool := { s.pool with supply } })

/-- Makes a flow file with the attributes and the buffer of another one, but with an identifier of
its own. -/
def clone (s : Scope) (source : FlowFile) : Except Error FlowFile × Scope :=
  s.withHeld source fun h =>
    let (id, supply) := s.pool.supply.takeId
    let (uuid, supply) := supply.takeUuid
    let (entryDate, supply) := supply.readClock
    let f : FlowFile :=
      { id, attributes := h.current.attributes.insert Attributes.uuid uuid,
        content := h.current.content, entryDate }
    let details := Text.join ["clone of ", Text.decimal source.id.toNat]
    (.ok f, { session := (s.session.hold f).record .clone id details,
              pool := { s.pool with supply } })

/-- Takes the oldest flow file of the queue, if there is one. -/
def poll (s : Scope) : Option FlowFile × Scope :=
  let (f?, pool) := s.pool.poll
  let session := match f? with
    | none => s.session
    | some f => s.session.holdPolled f
  (f?, ⟨session, pool⟩)

/-- Takes the oldest flow files of the queue, `max` of them or as many as there are. -/
def pollUpTo (s : Scope) (max : Nat) : List FlowFile × Scope :=
  let (fs, pool) := s.pool.pollUpTo max
  (fs, ⟨fs.foldl Session.holdPolled s.session, pool⟩)

/-- Gives the held flow file a new content. -/
def replaceContent (s : Scope) (h : Holding) (bytes : List UInt8) : FlowFile × Scope :=
  let (content, supply) := s.pool.supply.takeBuffer bytes
  let f := { h.current with content }
  (f, { session := (s.session.revise h f).record .contentModified f.id,
        pool := { s.pool with supply } })

/-- Gives the held flow file other attributes. -/
def replaceAttributes (s : Scope) (h : Holding) (attributes : Attributes) (details : Text) :
    FlowFile × Scope :=
  let f := h.current.withAttributes attributes
  (f, { s with session := (s.session.revise h f).record .attributesModified f.id details })

def importBytes (s : Scope) (bytes : List UInt8) (f : FlowFile) : Except Error FlowFile × Scope :=
  s.withHeld f fun h =>
    let (f, s) := s.replaceContent h bytes
    (.ok f, s)

/-- Reads the stream to its end into the content; a broken one changes nothing. -/
def importStream (s : Scope) (stream : Stream) (f : FlowFile) : Except Error FlowFile × Scope :=
  s.withHeld f fun _ =>
    match stream with
    | .broken => (.error (.read (.importing f.id)), s)
    | .readable bytes => s.importBytes bytes f

/-- Lets the writer change a copy of the content.  That there is a writer is checked first. -/
def write (s : Scope) (writer : Option Writer) (f : FlowFile) : Except Error FlowFile × Scope :=
  match writer with
  | none => (.error (.argument .noWriter), s)
  | some writer =>
    s.withHeld f fun h =>
      match writer h.current.content.bytes with
      | .error e => (.error e, s)
      | .ok bytes =>
        let (f, s) := s.replaceContent h bytes
        (.ok f, s)

def putAttribute (s : Scope) (f : FlowFile) (key value : Text) : Except Error FlowFile × Scope :=
  s.withHeld f fun h =>
    let (f, s) := s.replaceAttributes h (h.current.attributes.insert key value) key
    (.ok f, s)

/-- Puts all attributes of a table in one step. -/
def putAttributes (s : Scope) (f : FlowFile) (attributes : Attributes) :
    Except Error FlowFile × Scope :=
  s.withHeld f fun h =>
    if attributes.isEmpty then (.ok h.current, s)
    else
      let (f, s) := s.replaceAttributes h (h.current.attributes.merge attributes) []
      (.ok f, s)

def removeAttribute (s : Scope) (f : FlowFile) (key : Text) : Except Error FlowFile × Scope :=
  s.withHeld f fun h =>
    if h.current.attributes.contains key then
      let (f, s) := s.replaceAttributes h (h.current.attributes.erase key) key
      (.ok f, s)
    else (.ok h.current, s)

/-- The content of the latest version. -/
def read (s : Scope) (f : FlowFile) : Except Error (List UInt8) × Scope :=
  s.withHeld f fun h => (.ok h.current.content.bytes, s)

end Scope

end ProcessorBench
