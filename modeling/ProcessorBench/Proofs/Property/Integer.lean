import Mathlib.Data.List.TakeWhile
import Mathlib.Data.Nat.Digits.Lemmas
import ProcessorBench.Property.Validator

/-!
# The grammar of integers

An integer is written as one or more decimal digits, after a minus sign or not, with nothing around
it (`Integer.Denotes`).  What the digits denote is said by `Nat.ofDigits`, apart from how they are
read.

* `Integer.read?_eq_some_iff`, `Integer.readWord?_eq_some_iff` — reading a text gives the number
  that it denotes, and reading a word does if 64 bits with a sign can hold that number.
* `Integer.scan_eq_iff` — to read a whole text is to read the longest numeral that it begins with
  and to find nothing behind it.
* `Integer.denotes_decimalInt` — the decimal text of a number denotes it.
* `Validator.integers_judged` — the two validators for integers accept exactly this grammar.
-/

set_option autoImplicit false

namespace ProcessorBench

namespace Integer

/-- An ASCII digit. -/
def IsDigit (b : UInt8) : Prop := 48 ≤ b ∧ b ≤ 57

instance : DecidablePred IsDigit := fun b => inferInstanceAs (Decidable (48 ≤ b ∧ b ≤ 57))

/-- One or more digits, and nothing else. -/
def IsNumeral (t : Text) : Prop := t ≠ [] ∧ ∀ b ∈ t, IsDigit b

/-- What digits denote; the last one counts ones. -/
def value (digits : Text) : Nat := Nat.ofDigits 10 (digits.reverse.map fun b => b.toNat - 48)

/-- The text is written as an integer and denotes this number. -/
inductive Denotes : Text → Int → Prop
  | natural {digits : Text} (numeral : IsNumeral digits) : Denotes digits (value digits)
  | negated {digits : Text} (numeral : IsNumeral digits) : Denotes (45 :: digits) (-value digits)

/-- Why no word can be read from the beginning of a text. -/
inductive Misread where
  | noDigits
  | outOfRange
  deriving DecidableEq, Repr

/-- Reads the digits at the beginning of `body`, of which there must be one, into a word of 64 bits
with a sign.  With the word comes what stands behind the digits; `t` is what is left if there are
none. -/
def scanDigits (sign : Int) (t body : Text) : Except Misread Int × Text :=
  let digits := body.takeWhile fun b => IsDigit b
  if digits = [] then (.error .noDigits, t)
  else
    let n := sign * value digits
    (if Int64.minValue.toInt ≤ n ∧ n ≤ Int64.maxValue.toInt then .ok n else .error .outOfRange,
      body.dropWhile fun b => IsDigit b)

/-- Reads the longest numeral that the text begins with, after a minus sign or not. -/
def scan : Text → Except Misread Int × Text
  | 45 :: rest => scanDigits (-1) (45 :: rest) rest
  | t => scanDigits 1 t t

/-! ## Digits -/

theorem digit?_eq_some_iff {b : UInt8} {d : Nat} :
    digit? b = some d ↔ IsDigit b ∧ b.toNat - 48 = d := by
  unfold digit? IsDigit
  split <;> simp_all

theorem value_cons (b : UInt8) (t : Text) :
    value (b :: t) = (b.toNat - 48) * 10 ^ t.length + value t := by
  simp [value, Nat.ofDigits_append, Nat.add_comm, Nat.mul_comm]

theorem value_append_singleton (t : Text) (b : UInt8) :
    value (t ++ [b]) = 10 * value t + (b.toNat - 48) := by
  simp [value, Nat.ofDigits_cons, Nat.add_comm]

/-- Zeros in front do not count. -/
theorem value_zeros_append (k : Nat) (t : Text) : value (List.replicate k 48 ++ t) = value t := by
  induction k with
  | zero => rfl
  | succ k ih =>
    rw [List.replicate_succ, List.cons_append, value_cons, ih]
    simp

theorem IsNumeral.zeros_append {t : Text} (h : IsNumeral t) (k : Nat) :
    IsNumeral (List.replicate k 48 ++ t) := by
  refine ⟨by simp [h.1], fun b hb => ?_⟩
  rcases List.mem_append.1 hb with hb | hb
  · rw [List.eq_of_mem_replicate hb]
    decide
  · exact h.2 b hb

/-- A numeral does not begin with a minus sign. -/
theorem IsNumeral.ne_minus {t : Text} (h : IsNumeral t) (rest : Text) : t ≠ 45 :: rest := by
  rintro rfl
  exact absurd (h.2 45 List.mem_cons_self) (by decide)

/-- A numeral ends where the digits end. -/
theorem IsNumeral.takeWhile_append {t : Text} (h : IsNumeral t) {b : UInt8} (hb : ¬IsDigit b)
    (rest : Text) : (t ++ b :: rest).takeWhile (fun c => decide (IsDigit c)) = t := by
  rw [List.takeWhile_append_of_pos (fun c hc => decide_eq_true (h.2 c hc)),
    List.takeWhile_cons_of_neg (by simpa using hb), List.append_nil]

/-- Of two texts that begin with a numeral, one continues the other only if the numerals are the
same. -/
theorem IsNumeral.eq_of_continues {t u rest rest' : Text} {b c : UInt8} (ht : IsNumeral t)
    (hu : IsNumeral u) (hb : ¬IsDigit b) (hc : ¬IsDigit c)
    (h : t ++ b :: rest <+: u ++ c :: rest') : t = u := by
  obtain ⟨more, hmore⟩ := h
  rw [List.append_assoc, List.cons_append] at hmore
  rw [← ht.takeWhile_append hb (rest ++ more), hmore, hu.takeWhile_append hc]

/-! ## The two forms of an integer -/

theorem denotes_minus_iff {t : Text} {n : Int} :
    Denotes (45 :: t) n ↔ IsNumeral t ∧ -(value t : Int) = n := by
  constructor
  · intro h
    cases h with
    | natural numeral => exact absurd rfl (numeral.ne_minus t)
    | negated numeral => exact ⟨numeral, rfl⟩
  · rintro ⟨numeral, rfl⟩
    exact .negated numeral

theorem denotes_iff_of_ne_minus {t : Text} (h : ∀ rest, t ≠ 45 :: rest) {n : Int} :
    Denotes t n ↔ IsNumeral t ∧ (value t : Int) = n := by
  constructor
  · intro hn
    cases hn with
    | natural numeral => exact ⟨numeral, rfl⟩
    | negated numeral => exact absurd rfl (h _)
  · rintro ⟨numeral, rfl⟩
    exact .natural numeral

theorem not_denotes_nil {n : Int} : ¬Denotes [] n := by
  rw [denotes_iff_of_ne_minus (by simp)]
  exact fun h => h.1.1 rfl

/-- Zeros in front of digits change nothing about what is denoted. -/
theorem IsNumeral.denotes_zeros_append {t : Text} (h : IsNumeral t) (k : Nat) (n : Int) :
    Denotes (List.replicate k 48 ++ t) n ↔ Denotes t n := by
  have hk := h.zeros_append k
  rw [denotes_iff_of_ne_minus hk.ne_minus, denotes_iff_of_ne_minus h.ne_minus, value_zeros_append]
  simp only [hk, h]

theorem IsNumeral.denotes_minus_zeros_append {t : Text} (h : IsNumeral t) (k : Nat) (n : Int) :
    Denotes (45 :: (List.replicate k 48 ++ t)) n ↔ Denotes (45 :: t) n := by
  rw [denotes_minus_iff, denotes_minus_iff, value_zeros_append]
  simp only [h.zeros_append k, h]

/-- A text that denotes an integer holds digits and, in front of them, a minus sign. -/
theorem Denotes.digit_or_minus {t : Text} {n : Int} (h : Denotes t n) :
    ∀ b ∈ t, IsDigit b ∨ b = 45 := by
  cases h with
  | natural numeral => exact fun b hb => .inl (numeral.2 b hb)
  | negated numeral =>
    intro b hb
    rcases List.mem_cons.1 hb with rfl | hb
    · exact .inr rfl
    · exact .inl (numeral.2 b hb)

/-- A text that denotes an integer ends with a digit. -/
theorem Denotes.digit_of_append {t : Text} {b : UInt8} {n : Int} (h : Denotes (t ++ [b]) n) :
    IsDigit b := by
  generalize ht : t ++ [b] = u at h
  cases h with
  | natural numeral => exact numeral.2 b (by simp [← ht])
  | negated numeral =>
    cases t with
    | nil =>
      cases ht
      exact absurd rfl numeral.1
    | cons a t =>
      cases ht
      exact numeral.2 b (by simp)

/-- A text has a minus sign in front or not. -/
theorem minus_cases (t : Text) : (∃ rest, t = 45 :: rest) ∨ ∀ rest, t ≠ 45 :: rest := by
  rw [← not_exists]
  exact Classical.em _

/-! ## Reading -/

/-- The state in which the digits are read is the number that those so far denote. -/
theorem foldlM_digits_eq_some_iff {t : Text} {n m : Nat} :
    t.foldlM (fun n b => (digit? b).map fun d => 10 * n + d) n = some m ↔
      (∀ b ∈ t, IsDigit b) ∧ n * 10 ^ t.length + value t = m := by
  induction t generalizing n with
  | nil => simp [value]
  | cons b t ih =>
    rw [List.foldlM_cons]
    show Option.bind _ _ = some m ↔ _
    rw [Option.bind_eq_some_iff]
    have hstep : ∀ d, (10 * n + d) * 10 ^ t.length + value t =
        n * 10 ^ (t.length + 1) + (d * 10 ^ t.length + value t) := by
      intro d
      ring
    constructor
    · rintro ⟨n', hn', hrest⟩
      obtain ⟨d, hd, rfl⟩ := Option.map_eq_some_iff.1 hn'
      obtain ⟨hb, rfl⟩ := digit?_eq_some_iff.1 hd
      obtain ⟨ht, rfl⟩ := ih.1 hrest
      refine ⟨List.forall_mem_cons.2 ⟨hb, ht⟩, ?_⟩
      rw [value_cons, List.length_cons, hstep]
    · rintro ⟨hall, rfl⟩
      obtain ⟨hb, ht⟩ := List.forall_mem_cons.1 hall
      refine ⟨_, Option.map_eq_some_iff.2 ⟨_, digit?_eq_some_iff.2 ⟨hb, rfl⟩, rfl⟩, ih.2 ⟨ht, ?_⟩⟩
      rw [value_cons, List.length_cons, hstep]

theorem magnitude?_eq_some_iff {t : Text} {m : Nat} :
    magnitude? t = some m ↔ IsNumeral t ∧ value t = m := by
  unfold magnitude? IsNumeral
  cases t with
  | nil => simp
  | cons b t =>
    rw [if_neg (by simp), foldlM_digits_eq_some_iff]
    simp

theorem read?_minus (t : Text) :
    read? (45 :: t) = (magnitude? t).map fun n : Nat => -(n : Int) := by
  show ((magnitude? t).bind fun n => some (n : Int)).map (- ·) = _
  cases magnitude? t <;> rfl

theorem read?_of_ne_minus {t : Text} (h : ∀ rest, t ≠ 45 :: rest) :
    read? t = (magnitude? t).map fun n : Nat => (n : Int) := by
  unfold read?
  split
  · exact absurd rfl (h _)
  · cases magnitude? t <;> rfl

/-- **Reading gives the number that the text denotes.** -/
theorem read?_eq_some_iff {t : Text} {n : Int} : read? t = some n ↔ Denotes t n := by
  rcases minus_cases t with ⟨rest, rfl⟩ | hne
  · rw [read?_minus, denotes_minus_iff, Option.map_eq_some_iff]
    simp [magnitude?_eq_some_iff, and_assoc]
  · rw [read?_of_ne_minus hne, denotes_iff_of_ne_minus hne, Option.map_eq_some_iff]
    simp [magnitude?_eq_some_iff, and_assoc]

/-- **Reading a word gives the number that the text denotes, if a word can hold it.** -/
theorem readWord?_eq_some_iff {t : Text} {n : Int} :
    readWord? t = some n ↔ Denotes t n ∧ -2 ^ 63 ≤ n ∧ n ≤ 2 ^ 63 - 1 := by
  unfold readWord?
  rw [Option.filter_eq_some_iff, read?_eq_some_iff, decide_eq_true_iff]
  rfl

/-- A text denotes one number at most. -/
theorem Denotes.unique {t : Text} {n m : Int} (hn : Denotes t n) (hm : Denotes t m) : n = m :=
  Option.some.inj ((read?_eq_some_iff.2 hn).symm.trans (read?_eq_some_iff.2 hm))

theorem scanDigits_eq_iff {sign n : Int} {t body : Text} :
    scanDigits sign t body = (.ok n, []) ↔
      (IsNumeral body ∧ sign * value body = n) ∧ -2 ^ 63 ≤ n ∧ n ≤ 2 ^ 63 - 1 := by
  have hall : (∀ b ∈ body, IsDigit b) ↔ body.takeWhile (fun b => IsDigit b) = body := by
    simp [List.takeWhile_eq_self_iff]
  unfold scanDigits
  by_cases hnone : body.takeWhile (fun b => IsDigit b) = []
  · rw [if_pos hnone]
    refine ⟨nofun, ?_⟩
    rintro ⟨⟨⟨hne, hdigits⟩, -⟩, -⟩
    rw [hall, hnone] at hdigits
    exact absurd hdigits.symm hne
  · rw [if_neg hnone, Prod.mk.injEq]
    constructor
    · rintro ⟨hword, hrest⟩
      have hbody : body.takeWhile (fun b => IsDigit b) = body := by
        simpa [hrest] using List.takeWhile_append_dropWhile (p := fun b => IsDigit b) (l := body)
      rw [hbody] at hnone hword
      split at hword
      · rename_i hrange
        cases hword
        exact ⟨⟨⟨hnone, hall.2 hbody⟩, rfl⟩, hrange⟩
      · cases hword
    · rintro ⟨⟨⟨-, hdigits⟩, rfl⟩, hrange⟩
      rw [hall.1 hdigits]
      exact ⟨if_pos hrange, List.dropWhile_eq_nil_iff.2 (by simpa using hdigits)⟩

/-- **Reading a whole text is reading what it begins with and finding nothing behind.** -/
theorem scan_eq_iff {t : Text} {n : Int} : scan t = (.ok n, []) ↔ readWord? t = some n := by
  rw [readWord?_eq_some_iff]
  rcases minus_cases t with ⟨rest, rfl⟩ | hne
  · rw [denotes_minus_iff]
    show scanDigits (-1) _ rest = _ ↔ _
    rw [scanDigits_eq_iff, neg_one_mul]
  · rw [denotes_iff_of_ne_minus hne]
    have hscan : scan t = scanDigits 1 t t := by
      unfold scan
      split
      · exact absurd rfl (hne _)
      · rfl
    rw [hscan, scanDigits_eq_iff, one_mul]

/-! ## Writing -/

theorem toNat_digitChar {d : Nat} (h : d < 10) : (Nat.digitChar d).val.toUInt8.toNat = 48 + d := by
  have hchar : (Nat.digitChar d).val.toNat = 48 + d := Nat.toNat_digitChar_of_lt_ten h
  rw [UInt32.toNat_toUInt8, hchar]
  omega

theorem isDigit_digitChar {d : Nat} (h : d < 10) : IsDigit (Nat.digitChar d).val.toUInt8 := by
  unfold IsDigit
  rw [UInt8.le_iff_toNat_le, UInt8.le_iff_toNat_le, toNat_digitChar h]
  simp
  omega

theorem decimal_of_lt {n : Nat} (h : n < 10) :
    Text.decimal n = [(Nat.digitChar n).val.toUInt8] := by
  unfold Text.decimal
  rw [Nat.toDigits_of_lt_base h]
  rfl

theorem decimal_of_le {n : Nat} (h : 10 ≤ n) :
    Text.decimal n = Text.decimal (n / 10) ++ [(Nat.digitChar (n % 10)).val.toUInt8] := by
  unfold Text.decimal
  rw [Nat.toDigits_of_base_le (by decide) h, List.map_append]
  rfl

/-- The decimal text of a number is a numeral for it. -/
theorem isNumeral_decimal (n : Nat) : IsNumeral (Text.decimal n) ∧ value (Text.decimal n) = n := by
  induction n using Nat.strong_induction_on with
  | _ n ih =>
    by_cases hn : n < 10
    · rw [decimal_of_lt hn]
      refine ⟨⟨by simp, by simpa using isDigit_digitChar hn⟩, ?_⟩
      have hone := value_append_singleton [] (Nat.digitChar n).val.toUInt8
      rw [toNat_digitChar hn] at hone
      simpa [value] using hone
    · have hdigit : n % 10 < 10 := Nat.mod_lt n (by decide)
      obtain ⟨⟨-, hdigits⟩, hvalue⟩ := ih (n / 10) (by omega)
      rw [decimal_of_le (by omega)]
      refine ⟨⟨by simp, fun b hb => ?_⟩, ?_⟩
      · rcases List.mem_append.1 hb with hb | hb
        · exact hdigits b hb
        · rw [List.mem_singleton.1 hb]
          exact isDigit_digitChar hdigit
      · rw [value_append_singleton, hvalue, toNat_digitChar hdigit]
        omega

theorem denotes_decimal (n : Nat) : Denotes (Text.decimal n) n := by
  obtain ⟨hnumeral, hvalue⟩ := isNumeral_decimal n
  have h := Denotes.natural hnumeral
  rw [hvalue] at h
  exact h

theorem decimal_injective : Function.Injective Text.decimal :=
  Function.LeftInverse.injective fun n => (isNumeral_decimal n).2

/-- **The decimal text of a number denotes it.** -/
theorem denotes_decimalInt (n : Int) : Denotes (Text.decimalInt n) n := by
  cases n with
  | ofNat n => exact denotes_decimal n
  | negSucc n =>
    obtain ⟨hnumeral, hvalue⟩ := isNumeral_decimal (n + 1)
    exact denotes_minus_iff.2 ⟨hnumeral, by rw [hvalue]; rfl⟩

end Integer

namespace Validator

open Integer

variable {subject s : Text}

/-! ## The validators -/

theorem integer_valid_iff : (integer subject s).valid = true ↔
    ∃ n, Denotes s n ∧ -2 ^ 63 ≤ n ∧ n ≤ 2 ^ 63 - 1 := by
  simp only [← readWord?_eq_some_iff]
  unfold integer
  cases readWord? s with
  | none => simp [Verdict.reject]
  | some n => simp [Verdict.accept]

theorem positiveInteger_valid_iff : (positiveInteger subject s).valid = true ↔
    ∃ n, Denotes s n ∧ 0 < n ∧ n ≤ 2 ^ 63 - 1 := by
  have hread : (positiveInteger subject s).valid = true ↔ ∃ n, readWord? s = some n ∧ 0 < n := by
    unfold positiveInteger
    cases readWord? s with
    | none => simp [Verdict.reject]
    | some n => by_cases hn : 0 < n <;> simp [Verdict.accept, Verdict.reject, hn]
  rw [hread]
  refine exists_congr fun n => ?_
  rw [readWord?_eq_some_iff]
  constructor
  · rintro ⟨⟨hn, -, hmax⟩, hpos⟩
    exact ⟨hn, hpos, hmax⟩
  · rintro ⟨hn, hpos, hmax⟩
    exact ⟨⟨hn, by omega, hmax⟩, hpos⟩

/-- What has a minus sign denotes nothing positive. -/
theorem exists_denotes_pos_iff : (∃ n, Denotes s n ∧ 0 < n ∧ n ≤ 2 ^ 63 - 1) ↔
    IsNumeral s ∧ 1 ≤ value s ∧ value s ≤ 2 ^ 63 - 1 := by
  constructor
  · rintro ⟨n, hn, hpos, hmax⟩
    cases hn with
    | natural numeral => exact ⟨numeral, by omega, by omega⟩
    | negated numeral => omega
  · rintro ⟨numeral, hpos, hmax⟩
    exact ⟨value s, .natural numeral, by omega, by omega⟩

theorem integer_about (subject s : Text) :
    (integer subject s).subject = subject ∧ (integer subject s).input = s := by
  unfold integer
  split <;> exact ⟨rfl, rfl⟩

theorem positiveInteger_about (subject s : Text) :
    (positiveInteger subject s).subject = subject ∧ (positiveInteger subject s).input = s := by
  unfold positiveInteger
  split
  · split <;> exact ⟨rfl, rfl⟩
  · exact ⟨rfl, rfl⟩

/-- Texts that denote the same are accepted alike. -/
theorem valid_congr (subject : Text) {t : Text} (h : ∀ n, Denotes t n ↔ Denotes s n) :
    (integer subject t).valid = (integer subject s).valid ∧
      (positiveInteger subject t).valid = (positiveInteger subject s).valid := by
  constructor
  · rw [Bool.eq_iff_iff, integer_valid_iff, integer_valid_iff]
    simp only [h]
  · rw [Bool.eq_iff_iff, positiveInteger_valid_iff, positiveInteger_valid_iff]
    simp only [h]

/-- A text that denotes nothing is not accepted. -/
theorem invalid_of_not_denotes (h : ∀ n, ¬Denotes s n) :
    (integer subject s).valid = false ∧ (positiveInteger subject s).valid = false := by
  constructor
  · refine Bool.eq_false_iff.2 fun hvalid => ?_
    obtain ⟨n, hn, -⟩ := integer_valid_iff.1 hvalid
    exact h n hn
  · refine Bool.eq_false_iff.2 fun hvalid => ?_
    obtain ⟨n, hn, -⟩ := positiveInteger_valid_iff.1 hvalid
    exact h n hn

/-- What the two validators for integers make of a text. -/
structure JudgesIntegers (subject s : Text) : Prop where
  /-- An integer is written, and nothing else, and 64 bits with a sign can hold it. -/
  accepted : (integer subject s).valid = true ↔
    ∃ n, Denotes s n ∧ -2 ^ 63 ≤ n ∧ n ≤ 2 ^ 63 - 1
  /-- Digits are written, and nothing else, and what they denote is positive and can be held. -/
  acceptedPositive : (positiveInteger subject s).valid = true ↔
    IsNumeral s ∧ 1 ≤ value s ∧ value s ≤ 2 ^ 63 - 1
  /-- To be accepted is to be used up by reading the longest numeral at the beginning. -/
  scanned : (integer subject s).valid = true ↔ ∃ n, scan s = (.ok n, [])
  /-- The decimal text of every word is accepted, as a positive integer if it is one. -/
  decimal : ∀ n : Int64, (integer subject (Text.decimalInt n.toInt)).valid = true ∧
    ((positiveInteger subject (Text.decimalInt n.toInt)).valid = true ↔ 0 < n)
  /-- Any number of zeros can stand in front of digits, with a minus sign before them or not. -/
  zeros : ∀ k, IsNumeral s →
    (integer subject (List.replicate k 48 ++ s)).valid = (integer subject s).valid ∧
      (integer subject (45 :: (List.replicate k 48 ++ s))).valid =
        (integer subject (45 :: s)).valid ∧
      (positiveInteger subject (List.replicate k 48 ++ s)).valid =
        (positiveInteger subject s).valid
  /-- The empty text is not accepted. -/
  empty : s = [] → (integer subject s).valid = false ∧ (positiveInteger subject s).valid = false
  /-- No byte is accepted but digits and, for integers, the minus sign. -/
  foreign : ∀ b ∈ s, ¬IsDigit b → (positiveInteger subject s).valid = false ∧
    (b ≠ 45 → (integer subject s).valid = false)
  /-- Nothing can stand behind the digits. -/
  trailing : ∀ b, ¬IsDigit b → (integer subject (s ++ [b])).valid = false ∧
    (positiveInteger subject (s ++ [b])).valid = false
  /-- Accepted or not, the verdict is about the subject and the text that were given. -/
  about : ((integer subject s).subject = subject ∧ (integer subject s).input = s) ∧
    (positiveInteger subject s).subject = subject ∧ (positiveInteger subject s).input = s

/-- **The validators for integers accept exactly what is written as one and fits into a word.** -/
theorem integers_judged (subject s : Text) : JudgesIntegers subject s where
  accepted := integer_valid_iff
  acceptedPositive := positiveInteger_valid_iff.trans exists_denotes_pos_iff
  scanned := by
    simp only [integer_valid_iff, ← readWord?_eq_some_iff, scan_eq_iff]
  decimal n := by
    have hn := denotes_decimalInt n.toInt
    have hmin := n.le_toInt
    have hmax := n.toInt_lt
    rw [integer_valid_iff, positiveInteger_valid_iff, Int64.lt_iff_toInt_lt]
    refine ⟨⟨n.toInt, hn, hmin, by omega⟩, ?_, fun hpos => ⟨n.toInt, hn, hpos, by omega⟩⟩
    rintro ⟨m, hm, hpos, -⟩
    rwa [hm.unique hn] at hpos
  zeros k hs := by
    obtain ⟨hplain, hpositive⟩ := valid_congr subject (hs.denotes_zeros_append k)
    exact ⟨hplain, (valid_congr subject (hs.denotes_minus_zeros_append k)).1, hpositive⟩
  empty hs := by
    subst hs
    exact invalid_of_not_denotes fun n hn => not_denotes_nil hn
  foreign b hb hdigit := by
    refine ⟨Bool.eq_false_iff.2 fun hvalid => ?_, fun hminus => ?_⟩
    · obtain ⟨numeral, -⟩ := exists_denotes_pos_iff.1 (positiveInteger_valid_iff.1 hvalid)
      exact hdigit (numeral.2 b hb)
    · exact (invalid_of_not_denotes fun n hn =>
        (hn.digit_or_minus b hb).elim hdigit hminus).1
  trailing b hb := invalid_of_not_denotes fun n hn => hb hn.digit_of_append
  about := ⟨integer_about subject s, positiveInteger_about subject s⟩

/-- The least word, with zeros in front, and the number below it. -/
example : (integer [] (Text.ofString "-009223372036854775808")).valid = true ∧
    (integer [] (Text.ofString "-9223372036854775809")).valid = false := by decide

end Validator

end ProcessorBench
