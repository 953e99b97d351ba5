import ProcessorBench.FlowFile.Supply
import Mathlib.Algebra.Group.Nat.Defs

/-!
# The numbers and identifiers of a supply

A supply counts in machine words.  What it gives out is told apart until it has given out as many
numbers as there are words.  Unique identifiers are told apart until thirty hexadecimal digits are
used up (`Uuid.text_inj`).
-/

set_option autoImplicit false

namespace ProcessorBench

namespace Supply

variable {first : UInt64}

/-- Offsets below the size of the counter are told apart. -/
theorem offset_inj {i j : Nat} (hi : i < UInt64.size) (hj : j < UInt64.size)
    (heq : (first + .ofNat i : UInt64) = first + .ofNat j) : i = j := by
  have hnat := congrArg UInt64.toNat (UInt64.add_right_inj first |>.1 heq)
  rwa [UInt64.toNat_ofNat_of_lt' hi, UInt64.toNat_ofNat_of_lt' hj] at hnat

theorem next_succ (k : Nat) : (first + .ofNat k : UInt64) + 1 = first + .ofNat (k + 1) := by
  rw [UInt64.add_assoc]
  congr 1
  rw [UInt64.ofNat_add]
  rfl

theorem succ_ne (id : UInt64) : id + 1 ≠ id := by
  intro h
  have h0 : id + 1 = id + 0 := by rw [h, UInt64.add_zero]
  exact absurd (UInt64.add_right_inj id |>.1 h0) (by decide)

end Supply

namespace Uuid

theorem length_digits (n : Nat) : (digits n).length = 30 := by
  unfold digits
  rw [List.length_map, List.length_zipIdx]
  rfl

theorem hexDigit_inj : ∀ d < 16, ∀ e < 16, Text.hexDigit d = Text.hexDigit e → d = e := by decide

theorem getElem?_digits (n : Nat) {i : Nat} (hi : i < pattern.length) :
    (digits n)[i]? = some (Text.hexDigit ((n / 16 ^ i + pattern[i]) % 16)) := by
  unfold digits
  rw [List.getElem?_map, List.getElem?_zipIdx, List.getElem?_eq_getElem hi]
  simp [Nat.shiftRight_eq_div_pow, Nat.pow_mul]

/-- The digits tell the number.  The shift that is added to each digit does not depend on it. -/
theorem digits_inj {m n : Nat} (hm : m < 16 ^ 30) (hn : n < 16 ^ 30) (h : digits m = digits n) :
    m = n := by
  have hdigit : ∀ i < pattern.length, m / 16 ^ i % 16 = n / 16 ^ i % 16 := by
    intro i hi
    have hget := getElem?_digits m hi
    rw [h, getElem?_digits n hi] at hget
    have hmod := hexDigit_inj _ (Nat.mod_lt _ (by decide)) _ (Nat.mod_lt _ (by decide))
      (Option.some.inj hget)
    omega
  -- the leading digits tell the number without its last `30 - k` ones
  have hleading : ∀ k ≤ 30, m / 16 ^ (30 - k) = n / 16 ^ (30 - k) := by
    intro k
    induction k with
    | zero => exact fun _ => (Nat.div_eq_of_lt hm).trans (Nat.div_eq_of_lt hn).symm
    | succ k ih =>
      intro hk
      have hrest := ih (by omega)
      have hlast := hdigit (30 - (k + 1)) (show 30 - (k + 1) < 30 by omega)
      rw [show 30 - k = 30 - (k + 1) + 1 by omega, Nat.pow_succ, ← Nat.div_div_eq_div_mul,
        ← Nat.div_div_eq_div_mul] at hrest
      omega
  simpa using hleading 30 (Nat.le_refl 30)

/-- **Different numbers have different identifiers**, as long as thirty digits are enough. -/
theorem text_inj {m n : Nat} (hm : m < 16 ^ 30) (hn : n < 16 ^ 30) (h : text m = text n) :
    m = n := by
  refine digits_inj hm hn ?_
  have hlength : (digits m).length = (digits n).length := by rw [length_digits, length_digits]
  unfold text Text.join at h
  generalize digits m = d at h hlength ⊢
  generalize digits n = e at h hlength ⊢
  have htake : ∀ i k, ((d.drop i).take k).length = ((e.drop i).take k).length := by
    intro i k
    rw [List.length_take, List.length_take, List.length_drop, List.length_drop, hlength]
  simp only [List.flatten_cons] at h
  obtain ⟨h8, h⟩ := List.append_inj h (htake 0 8)
  obtain ⟨h12, h⟩ := List.append_inj (List.append_cancel_left h) (htake 8 4)
  obtain ⟨h15, h⟩ := List.append_inj (List.append_cancel_left h) (htake 12 3)
  obtain ⟨h18, h⟩ := List.append_inj (List.append_cancel_left h) (htake 15 3)
  have hrest := List.append_cancel_right (List.append_cancel_left h)
  rw [← List.take_append_drop 8 d, ← List.take_append_drop 8 e, h8,
    ← List.take_append_drop 4 (d.drop 8), ← List.take_append_drop 4 (e.drop 8), h12,
    List.drop_drop, List.drop_drop, ← List.take_append_drop 3 (d.drop 12),
    ← List.take_append_drop 3 (e.drop 12), h15, List.drop_drop, List.drop_drop,
    ← List.take_append_drop 3 (d.drop 15), ← List.take_append_drop 3 (e.drop 15), h18,
    List.drop_drop, List.drop_drop, hrest]

end Uuid

end ProcessorBench
