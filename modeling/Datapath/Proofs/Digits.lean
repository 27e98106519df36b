import Datapath.Numeral

/-!
# Digits of a number

The decimal text of a number is its digits and nothing else: every character is a digit, reading the
digits from the left gives the number back, and the first of them is zero only when the number is.
-/

set_option autoImplicit false

namespace Datapath.Numeral

theorem toUpper_of_isDigit {c : Char} (h : c.isDigit = true) : c.toUpper = c := by
  have hrange : c.val ≤ '9'.val := by
    rw [Char.isDigit, Bool.and_eq_true, decide_eq_true_iff, decide_eq_true_iff] at h
    exact h.2
  have hlow : ¬ ('a'.val ≤ c.val ∧ c.val ≤ 'z'.val) := by
    rintro ⟨hle, -⟩
    exact absurd (UInt32.le_trans hle hrange) (by decide)
  exact dif_neg hlow

/-- Every character of a number is the digit of a number below the radix. -/
theorem exists_of_mem_digits {radix n : Nat} (hradix : 1 < radix) {c : Char}
    (h : c ∈ digits radix n) : ∃ d, d < radix ∧ c = d.digitChar.toUpper := by
  obtain ⟨c, hc, rfl⟩ := List.mem_map.mp h
  clear h
  -- The last digit is the remainder by the radix, and the others are those of the quotient.
  induction n using Nat.strongRecOn with
  | ind n ih =>
    by_cases hn : n < radix
    · rw [Nat.toDigits_of_lt_base hn] at hc
      exact ⟨n, hn, by rw [List.mem_singleton.mp hc]⟩
    · have hless : n / radix < n := Nat.div_lt_self (by omega) hradix
      rw [Nat.toDigits_of_base_le hradix (Nat.le_of_not_lt hn)] at hc
      rcases List.mem_append.mp hc with hinit | hlast
      · exact ih (n / radix) hless hinit
      · exact ⟨n % radix, Nat.mod_lt n (by omega), by rw [List.mem_singleton.mp hlast]⟩

/-- Up to ten there are no letters that could be capital. -/
theorem digits_ten (n : Nat) : digits 10 n = Nat.toDigits 10 n := by
  rw [digits]
  refine (List.map_congr_left fun c hc => ?_).trans (List.map_id _)
  exact toUpper_of_isDigit (Nat.isDigit_of_mem_toDigits (by decide) (by decide) hc)

theorem toList_decimal (n : Nat) : (decimal n).toList = Nat.toDigits 10 n := by
  rw [decimal, String.toList_ofList, digits_ten]

theorem isDigit_of_mem_decimal {n : Nat} {c : Char} (h : c ∈ (decimal n).toList) :
    c.isDigit = true := by
  rw [toList_decimal] at h
  exact Nat.isDigit_of_mem_toDigits (by decide) (by decide) h

theorem ofDigitChars_decimal (n : Nat) : Nat.ofDigitChars 10 (decimal n).toList 0 = n := by
  rw [toList_decimal, Nat.ofDigitChars_toDigits (by decide) (by decide)]

/-- No zeros lead a number that is not zero. -/
theorem decimal_eq_cons {n : Nat} (h : 0 < n) :
    ∃ c rest, (decimal n).toList = c :: rest ∧ c ≠ '0' := by
  induction n using Nat.strongRecOn with
  | ind n ih =>
    rw [toList_decimal]
    by_cases hn : n < 10
    · refine ⟨n.digitChar, [], Nat.toDigits_of_lt_base hn, fun hzero => ?_⟩
      have hvalue := congrArg Char.toNat hzero
      rw [Nat.toNat_digitChar_of_lt_ten hn] at hvalue
      exact absurd (Nat.add_left_cancel (hvalue.trans (Nat.add_zero 48).symm)) (Nat.ne_of_gt h)
    · -- The first digit is that of the number without its last one.
      obtain ⟨c, rest, hdigits, hc⟩ := ih (n / 10) (by omega) (by omega)
      rw [toList_decimal] at hdigits
      refine ⟨c, rest ++ [(n % 10).digitChar], ?_, hc⟩
      rw [Nat.toDigits_of_base_le (by decide) (Nat.le_of_not_lt hn), hdigits, List.cons_append]

end Datapath.Numeral
