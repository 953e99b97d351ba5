import ProcessorBench.FlowFile.Check
import ProcessorBench.Proofs.Property.Integer

/-!
# What a comparison of contents says

A content is compared with an expected one byte by byte or as one text.

* `firstDifference_eq_some_iff`, `firstDifference_eq_none_iff` — what the scan of two byte strings
  finds.
* `scanFrom_eq` — the same scan by positions reads no byte that is not there.
* `FlowFile.content_checks_agree` — both comparisons pass exactly equal contents, and what the first
  one reports of others.
-/

set_option autoImplicit false

namespace ProcessorBench

/-! ## The first difference -/

/-- What is found is a position at which both strings have a byte, the first one with different
bytes. -/
theorem firstDifference_eq_some_iff {as bs : List UInt8} {i : Nat} {x y : UInt8} :
    firstDifference as bs = some (i, x, y) ↔
      as[i]? = some x ∧ bs[i]? = some y ∧ x ≠ y ∧ ∀ j < i, as[j]? = bs[j]? := by
  induction as, bs using firstDifference.induct generalizing i with
  | case1 as b bs ih =>
    rw [firstDifference, if_pos rfl]
    cases i with
    | zero =>
      simp only [List.getElem?_cons_zero, Option.some.injEq, Option.map_eq_some_iff]
      constructor
      · rintro ⟨⟨j, x', y'⟩, -, h⟩
        cases h
      · rintro ⟨rfl, rfl, hne, -⟩
        exact absurd rfl hne
    | succ i =>
      simp only [List.getElem?_cons_succ, Option.map_eq_some_iff, Nat.forall_lt_succ_left,
        List.getElem?_cons_zero, true_and]
      rw [← ih]
      constructor
      · rintro ⟨⟨j, x', y'⟩, hfound, h⟩
        cases h
        exact hfound
      · exact fun hfound => ⟨(i, x, y), hfound, rfl⟩
  | case2 a as b bs hne =>
    rw [firstDifference, if_neg hne]
    cases i with
    | zero =>
      simp only [Option.some.injEq, Prod.mk.injEq, true_and, List.getElem?_cons_zero, Nat.not_lt_zero,
        false_implies, implies_true, and_true]
      constructor
      · rintro ⟨rfl, rfl⟩
        exact ⟨rfl, rfl, hne⟩
      · exact fun ⟨hx, hy, _⟩ => ⟨hx, hy⟩
    | succ i =>
      constructor
      · intro h
        cases h
      · rintro ⟨-, -, -, hbefore⟩
        have hfirst := hbefore 0 (Nat.succ_pos i)
        simp only [List.getElem?_cons_zero, Option.some.injEq] at hfirst
        exact absurd hfirst hne
  | case3 as bs hends =>
    rw [firstDifference]
    · constructor
      · intro h
        cases h
      · rintro ⟨hx, hy, -, -⟩
        -- one of the strings has ended
        cases as with
        | nil => cases hx
        | cons a as =>
          cases bs with
          | nil => cases hy
          | cons b bs => exact absurd rfl (hends a as b bs rfl)
    · exact hends

/-- Nothing is found in strings of one length exactly if they are equal. -/
theorem firstDifference_eq_none_iff {as bs : List UInt8} (hlength : as.length = bs.length) :
    firstDifference as bs = none ↔ as = bs := by
  induction as, bs using firstDifference.induct with
  | case1 as b bs ih =>
    have hrest : as.length = bs.length := by simpa using hlength
    rw [firstDifference, if_pos rfl, Option.map_eq_none_iff, ih hrest]
    simp
  | case2 a as b bs hne =>
    rw [firstDifference, if_neg hne]
    simp [hne]
  | case3 as bs hends =>
    cases as with
    | nil =>
      have hnil : bs = [] := List.length_eq_zero_iff.1 hlength.symm
      subst hnil
      simp [firstDifference]
    | cons a as =>
      cases bs with
      | nil => cases hlength
      | cons b bs => exact absurd rfl (hends a as b bs rfl)

/-- The scan of `n` positions from `i` on, which reads each byte by its position.  There is no
result if it reads past the end of one of the strings. -/
def scanFrom (as bs : List UInt8) : (n i : Nat) → Option (Option (Nat × UInt8 × UInt8))
  | 0, _ => some none
  | n + 1, i => do
    let x ← as[i]?
    let y ← bs[i]?
    if x = y then scanFrom as bs n (i + 1) else some (some (i, x, y))

/-- In strings of one length the scan by positions stays within both, and finds the first
difference. -/
theorem scanFrom_eq {as bs : List UInt8} (hlength : as.length = bs.length) {n i : Nat}
    (hend : i + n = as.length) :
    scanFrom as bs n i = some ((firstDifference (as.drop i) (bs.drop i)).map
      fun (j, x, y) => (i + j, x, y)) := by
  induction n generalizing i with
  | zero =>
    have hdrop : as.drop i = [] := List.drop_of_length_le (by omega)
    rw [scanFrom, hdrop]
    rfl
  | succ n ih =>
    have has : i < as.length := by omega
    have hbs : i < bs.length := by omega
    rw [scanFrom, List.getElem?_eq_getElem has, List.getElem?_eq_getElem hbs,
      List.drop_eq_getElem_cons has, List.drop_eq_getElem_cons hbs, firstDifference]
    by_cases heq : as[i] = bs[i]
    · have hrest := ih (i := i + 1) (by omega)
      simp only [Option.bind_eq_bind, Option.bind_some, if_pos heq, hrest, Option.map_map]
      congr 2
      funext ⟨j, x, y⟩
      simp only [Function.comp_apply, Prod.mk.injEq, and_true]
      omega
    · simp [heq]

-- without a look at the sizes, the scan would read past the end of the shorter string
example : scanFrom [1, 2] [1] 2 0 = none := by decide

/-! ## Wordings without a zero byte -/

namespace Text

/-- No byte of the text is zero, so a reader of a zero-terminated text sees all of it. -/
def Plain (t : Text) : Prop := ∀ b ∈ t, b ≠ 0

instance (t : Text) : Decidable t.Plain := List.decidableBAll (fun b => b ≠ 0) t

theorem visible_of_plain {t : Text} (h : t.Plain) : t.visible = t := by
  unfold visible
  rw [List.takeWhile_eq_self_iff]
  exact fun b hb => decide_eq_true (h b hb)

theorem plain_join {parts : List Text} : (join parts).Plain ↔ ∀ t ∈ parts, t.Plain := by
  unfold join Plain
  simp only [List.mem_flatten]
  constructor
  · exact fun h t ht b hb => h b ⟨t, ht, hb⟩
  · rintro h b ⟨t, ht, hb⟩
    exact h t ht b hb

theorem plain_decimal (n : Nat) : (decimal n).Plain := by
  intro b hb hzero
  have hdigit := (Integer.isNumeral_decimal n).1.2 b hb
  rw [hzero] at hdigit
  exact absurd hdigit (by decide)

theorem plain_hexByte (b : UInt8) : (hexByte b).Plain := by
  have hdigit : ∀ d < 16, hexDigit d ≠ 0 := by decide
  have hbound := b.toNat_lt
  intro c hc
  rcases List.mem_pair.1 hc with rfl | rfl
  · exact hdigit _ (by omega)
  · exact hdigit _ (by omega)

end Text

theorem Error.message_check_of_plain {fault : CheckFault} (h : fault.message.Plain) :
    (Error.check fault).message = fault.message :=
  Text.visible_of_plain h

theorem Error.CheckFault.plain_contentSize (id : UInt64) (found expected : Nat) :
    (contentSize id found expected).message.Plain := by
  simp only [message, Text.plain_join, List.forall_mem_cons, Text.plain_decimal, true_and]
  decide

theorem Error.CheckFault.plain_contentByte (id : UInt64) (offset : Nat) (expected found : UInt8) :
    (contentByte id offset expected found).message.Plain := by
  simp only [message, Text.plain_join, List.forall_mem_cons, Text.plain_decimal,
    Text.plain_hexByte, true_and]
  decide

/-! ## The two comparisons -/

namespace FlowFile

variable {f : FlowFile} {expected : List UInt8}

theorem assertBytes_of_size_ne (h : f.size ≠ expected.length) :
    f.assertBytes expected = .error (.check (.contentSize f.id f.size expected.length)) := by
  unfold assertBytes
  rw [if_pos h]

theorem assertBytes_of_equal (h : f.content.bytes = expected) : f.assertBytes expected = .ok () := by
  have hsize : f.size = expected.length := congrArg List.length h
  have hnone := (firstDifference_eq_none_iff hsize).2 h
  unfold assertBytes
  rw [if_neg (not_not.2 hsize), hnone]

/-- Different contents of one size differ at a first position. -/
theorem assertBytes_of_bytes_ne (hsize : f.size = expected.length) (h : f.content.bytes ≠ expected) :
    ∃ offset found wanted, f.content.bytes[offset]? = some found ∧
      expected[offset]? = some wanted ∧ found ≠ wanted ∧
      (∀ i < offset, f.content.bytes[i]? = expected[i]?) ∧
      f.assertBytes expected = .error (.check (.contentByte f.id offset wanted found)) := by
  cases hdifference : firstDifference f.content.bytes expected with
  | none => exact absurd ((firstDifference_eq_none_iff hsize).1 hdifference) h
  | some difference =>
    obtain ⟨offset, found, wanted⟩ := difference
    obtain ⟨hfound, hwanted, hne, hbefore⟩ := firstDifference_eq_some_iff.1 hdifference
    refine ⟨offset, found, wanted, hfound, hwanted, hne, hbefore, ?_⟩
    unfold assertBytes
    rw [if_neg (not_not.2 hsize), hdifference]

theorem assertBytes_eq_ok_iff : f.assertBytes expected = .ok () ↔ f.content.bytes = expected := by
  refine ⟨fun hok => ?_, assertBytes_of_equal⟩
  by_contra hne
  by_cases hsize : f.size = expected.length
  · obtain ⟨offset, found, wanted, -, -, -, -, herror⟩ := assertBytes_of_bytes_ne hsize hne
    rw [herror] at hok
    cases hok
  · rw [assertBytes_of_size_ne hsize] at hok
    cases hok

theorem assertText_eq_ok_iff : f.assertText expected = .ok () ↔ f.content.bytes = expected := by
  unfold assertText
  split <;> simp_all

/-- A check that fails is an assertion that fails. -/
theorem assertBytes_eq_error {e : Error} (h : f.assertBytes expected = .error e) :
    e.kind = .assertionFailed := by
  unfold assertBytes at h
  split at h
  · cases h
    rfl
  · split at h <;> cases h
    rfl

theorem assertText_eq_error {e : Error} (h : f.assertText expected = .error e) :
    e.kind = .assertionFailed := by
  unfold assertText at h
  split at h <;> cases h
  rfl

/-- What the comparisons of a content with an expected one come to. -/
structure Compared (f : FlowFile) (expected : List UInt8) : Prop where
  /-- Byte by byte, equal contents pass, and no others. -/
  bytes : f.assertBytes expected = .ok () ↔ f.content.bytes = expected
  /-- So they do as one text. -/
  text : f.assertText expected = .ok () ↔ f.content.bytes = expected
  /-- Whatever does not pass is an assertion that fails. -/
  failed : ∀ e, f.assertBytes expected = .error e ∨ f.assertText expected = .error e →
    e.kind = .assertionFailed
  /-- Of contents of different sizes, both sizes are reported. -/
  sizes : f.size ≠ expected.length → ∃ e, f.assertBytes expected = .error e ∧
    e = .check (.contentSize f.id f.size expected.length) ∧
    e.message = Text.join ["Content of flow file ", Text.decimal f.id.toNat, " has size ",
      Text.decimal f.size, " but ", Text.decimal expected.length, " bytes were expected"]
  /-- Of different contents of one size, the first position is reported at which they differ, with
  the two bytes there. -/
  offset : f.size = expected.length → f.content.bytes ≠ expected →
    ∃ offset found wanted e, f.content.bytes[offset]? = some found ∧
      expected[offset]? = some wanted ∧ found ≠ wanted ∧
      (∀ i < offset, f.content.bytes[i]? = expected[i]?) ∧
      f.assertBytes expected = .error e ∧
      e = .check (.contentByte f.id offset wanted found) ∧
      e.message = Text.join ["Content of flow file ", Text.decimal f.id.toNat,
        " differs at byte ", Text.decimal offset, ": expected 0x", Text.hexByte wanted,
        " but found 0x", Text.hexByte found]
  /-- Once the sizes are the same, no byte is read that is not there. -/
  within : f.size = expected.length → scanFrom f.content.bytes expected f.size 0 =
    some (firstDifference f.content.bytes expected)

/-- **The two comparisons of a content agree,** on every content and every expected one: they pass
if all bytes are equal, and fail if not.  The one that goes byte by byte reports the sizes if these
are different, else the first position at which the bytes are, and stays within both contents. -/
theorem content_checks_agree (f : FlowFile) (expected : List UInt8) : f.Compared expected where
  bytes := assertBytes_eq_ok_iff
  text := assertText_eq_ok_iff
  failed e h := h.elim assertBytes_eq_error assertText_eq_error
  sizes hsize :=
    ⟨_, assertBytes_of_size_ne hsize, rfl,
      Error.message_check_of_plain (Error.CheckFault.plain_contentSize _ _ _)⟩
  offset hsize hne := by
    obtain ⟨offset, found, wanted, hfound, hwanted, hdiffer, hbefore, herror⟩ :=
      assertBytes_of_bytes_ne hsize hne
    exact ⟨offset, found, wanted, _, hfound, hwanted, hdiffer, hbefore, herror, rfl,
      Error.message_check_of_plain (Error.CheckFault.plain_contentByte _ _ _ _)⟩
  within hsize := by
    have hscan : scanFrom f.content.bytes expected f.size 0 = _ :=
      scanFrom_eq hsize (Nat.zero_add f.size)
    simpa using hscan

end FlowFile

end ProcessorBench
