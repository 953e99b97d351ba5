/-!
# Text as bytes

Names, values, messages and contents are byte strings: a content may hold any bytes, and it can
end up inside a message.  `Text.ofString` gives the bytes of a literal, which is also the coercion
that lets a message be written as a list of parts, and `Text.join` puts the parts together.
`Text.decimal` and `Text.hexByte` are the two number formats that messages use.
-/

namespace ProcessorBench

/-- A byte string.  Texts are ordered by their bytes, a text before its own extensions. -/
abbrev Text := List UInt8

namespace Text

/-- The bytes of a string in UTF-8. -/
def ofString (s : String) : Text := s.toList.flatMap String.utf8EncodeChar

instance : Coe String Text := ⟨ofString⟩

/-- The parts of a message, one after the other. -/
def join (parts : List Text) : Text := parts.flatten

/-- The texts with `separator` between each two neighbours. -/
def intercalate (separator : Text) (parts : List Text) : Text :=
  (parts.intersperse separator).flatten

/-- The decimal digits of a number. -/
def decimal (n : Nat) : Text := (Nat.toDigits 10 n).map fun c => c.val.toUInt8

/-- The decimal digits of an integer, after a minus sign if it is negative. -/
def decimalInt : Int → Text
  | .ofNat n => decimal n
  | .negSucc n => 45 :: decimal (n + 1)

/-- The lower-case hexadecimal digit of a number below sixteen. -/
def hexDigit (n : Nat) : UInt8 := if n < 10 then (48 + n).toUInt8 else (87 + n).toUInt8

/-- A byte as two hexadecimal digits. -/
def hexByte (b : UInt8) : Text := [hexDigit (b.toNat / 16), hexDigit (b.toNat % 16)]

/-- The bytes of a text in hexadecimal. -/
def hex (t : Text) : Text := t.flatMap hexByte

/-- The value of a lower-case hexadecimal digit; any other byte counts as zero. -/
def hexValue (b : UInt8) : Nat :=
  if 48 ≤ b ∧ b ≤ 57 then b.toNat - 48 else if 97 ≤ b ∧ b ≤ 102 then b.toNat - 87 else 0

/-- The bytes that pairs of hexadecimal digits stand for. -/
def ofHex : Text → Text
  | a :: b :: rest => (16 * hexValue a + hexValue b).toUInt8 :: ofHex rest
  | _ => []

/-- The text before its first zero byte, which is all that a reader of a zero-terminated text gets
to see. -/
def visible (t : Text) : Text := t.takeWhile (· ≠ 0)

/-- The name after its own length, which is how type descriptions spell names. -/
def sized (name : Text) : Text := decimal name.length ++ name

/-- The type description of one of the library's own types. -/
def ownType (name : Text) : Text := join ["N", sized "FlowHarness", sized name, "E"]

end Text

end ProcessorBench
