import ProcessorBench.FlowFile.Basic

/-!
# Checks on a flow file

What a test asserts about one flow file.  A check that holds answers nothing; one that does not
says what it found.
-/

namespace ProcessorBench

/-- The first position at which two byte strings differ, with the two bytes there.  Looks no
further than the end of the shorter one. -/
def firstDifference : List UInt8 → List UInt8 → Option (Nat × UInt8 × UInt8)
  | a :: as, b :: bs =>
    if a = b then (firstDifference as bs).map fun (i, x, y) => (i + 1, x, y) else some (0, a, b)
  | _, _ => none

namespace FlowFile

def assertAttribute (f : FlowFile) (key : Text) : Except Error Unit :=
  if f.attributes.contains key then .ok () else .error (.check (.attributeMissing f.id key))

def assertNoAttribute (f : FlowFile) (key : Text) : Except Error Unit :=
  if f.attributes.contains key then .error (.check (.attributePresent f.id key)) else .ok ()

def assertAttributeEq (f : FlowFile) (key expected : Text) : Except Error Unit :=
  match f.attribute? key with
  | none => .error (.check (.attributeAbsent f.id key expected))
  | some found =>
    if found = expected then .ok () else .error (.check (.attributeDiffers f.id key expected found))

/-- Compares the content byte by byte: first the sizes, then the first difference. -/
def assertBytes (f : FlowFile) (expected : List UInt8) : Except Error Unit :=
  if f.size ≠ expected.length then .error (.check (.contentSize f.id f.size expected.length))
  else
    match firstDifference f.content.bytes expected with
    | none => .ok ()
    | some (offset, found, wanted) => .error (.check (.contentByte f.id offset wanted found))

/-- Compares the content as one text. -/
def assertText (f : FlowFile) (expected : Text) : Except Error Unit :=
  if f.content.bytes = expected then .ok ()
  else .error (.check (.contentText f.id f.content.bytes expected))

end FlowFile

end ProcessorBench
