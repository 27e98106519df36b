import Datapath.Proofs.Product
import Datapath.Proofs.SignExtension

/-!
# Quotients

A division rounds toward zero. `Truncates` says what that is without dividing: the quotient and the
remainder account for the dividend, the remainder is smaller than the divisor, and it has the sign of
the dividend if it has one. No other two integers do (`Truncates.eq`).

Cells hold every quotient of cells but one, that of the least cell by minus one, which wraps round to
the least cell again and leaves no remainder. What holds of it as well is the account modulo the
whole cell (`sdiv_mul_add_srem`), and so the unit takes back any division of its own: the quotient
times the divisor and the remainder on top are the dividend (`target_restore`).
-/

set_option autoImplicit false

namespace Datapath

/-! ## Rounding toward zero -/

/-- The quotient and the remainder of a division that rounds toward zero. -/
structure Truncates (a b q r : Int) : Prop where
  account : a = q * b + r
  small : r.natAbs < b.natAbs
  sign : r = 0 ∨ r.sign = a.sign

variable {a b q r : Int}

theorem truncates_tdiv (hb : b ≠ 0) : Truncates a b (a.tdiv b) (a.tmod b) := by
  have hpos : 0 < b.natAbs := Int.natAbs_pos.mpr hb
  refine ⟨?_, ?_, ?_⟩
  · rw [Int.mul_comm]
    exact (Int.mul_tdiv_add_tmod a b).symm
  · rw [Int.natAbs_tmod]
    exact Nat.mod_lt _ hpos
  · have hsign := Int.sign_tmod a b
    by_cases hdvd : b ∣ a
    · exact Or.inl (Int.tmod_eq_zero_of_dvd hdvd)
    · rw [if_neg hdvd] at hsign
      exact Or.inr hsign

/-- The sign of the dividend bounds the remainder on one side and the divisor on the other, and no
two remainders between these bounds belong to one dividend. -/
theorem Truncates.eq (h : Truncates a b q r) : q = a.tdiv b ∧ r = a.tmod b := by
  obtain ⟨haccount, hsmall, hsign⟩ := h
  have hb : b ≠ 0 := by
    rintro rfl
    exact absurd hsmall (Nat.not_lt_zero _)
  have hsum : r + b * q = a := by
    rw [haccount, Int.mul_comm, Int.add_comm]
  rcases Int.le_total 0 a with ha | ha
  · have hr : 0 ≤ r := by
      rcases hsign with rfl | hsign
      · exact Int.le_refl 0
      · rw [← Int.sign_nonneg_iff, hsign]
        exact Int.sign_nonneg_iff.mpr ha
    obtain ⟨hq, hr⟩ := (Int.tdiv_tmod_unique ha hb).mpr ⟨hsum, hr, by omega⟩
    exact ⟨hq.symm, hr.symm⟩
  · have hr : r ≤ 0 := by
      rcases hsign with rfl | hsign
      · exact Int.le_refl 0
      · rw [← Int.sign_nonpos_iff, hsign]
        exact Int.sign_nonpos_iff.mpr ha
    obtain ⟨hq, hr⟩ := (Int.tdiv_tmod_unique' ha hb).mpr ⟨hsum, by omega, hr⟩
    exact ⟨hq.symm, hr.symm⟩

/-! ## Cells -/

namespace Cell

variable {c d : Cell}

theorem sdiv_eq_ofInt (c d : Cell) : c.sdiv d = BitVec.ofInt 64 (c.toInt.tdiv d.toInt) := by
  rw [← BitVec.toInt_inj, BitVec.toInt_sdiv, BitVec.toInt_ofInt]

theorem srem_eq_ofInt (c d : Cell) : c.srem d = BitVec.ofInt 64 (c.toInt.tmod d.toInt) := by
  rw [← BitVec.toInt_srem, BitVec.ofInt_toInt]

/-- A quotient that wraps loses a multiple of the whole cell, so the account still holds in cells. -/
theorem sdiv_mul_add_srem (c d : Cell) : c.sdiv d * d + c.srem d = c := by
  calc c.sdiv d * d + c.srem d
      = BitVec.ofInt 64 (c.toInt.tdiv d.toInt) * BitVec.ofInt 64 d.toInt
          + BitVec.ofInt 64 (c.toInt.tmod d.toInt) := by
        rw [sdiv_eq_ofInt, srem_eq_ofInt, BitVec.ofInt_toInt]
    _ = BitVec.ofInt 64 (d.toInt * c.toInt.tdiv d.toInt + c.toInt.tmod d.toInt) := by
        rw [← BitVec.ofInt_mul, ← BitVec.ofInt_add, Int.mul_comm]
    _ = c := by
        rw [Int.mul_tdiv_add_tmod, BitVec.ofInt_toInt]

theorem toInt_sdiv_of_not_overflows (hover : ¬ QuotientOverflows .w64 c d) :
    (c.sdiv d).toInt = c.toInt.tdiv d.toInt := by
  obtain ⟨hle, hlt⟩ := tdiv_mem_range c.le_toInt c.toInt_lt hover
  rw [sdiv_eq_ofInt]
  exact BitVec.toInt_ofInt_eq_self (by decide) hle hlt

theorem toInt_sdiv_of_overflows (hover : QuotientOverflows .w64 c d) :
    (c.sdiv d).toInt = -2 ^ 63 ∧ (c.srem d).toInt = 0 := by
  obtain ⟨hdividend, hdivisor⟩ := hover
  rw [BitVec.toInt_sdiv, BitVec.toInt_srem, hdividend, hdivisor]
  decide

end Cell

open Cell (QuotientOverflows)

namespace StatusWord

theorem Describes.write {st : StatusWord} {s : Int} (h : st.Describes s) {f : Field} (v : f.Value)
    (hzero : f ≠ .zero) (hnegative : f ≠ .negative) : (st.write f v).Describes s := by
  refine ⟨?_, ?_⟩
  · rw [read_write_of_ne _ _ hzero]
    exact h.zero
  · rw [read_write_of_ne _ _ hnegative]
    exact h.negative

theorem describe_write (st : StatusWord) {f : Field} (v : f.Value) (result : Cell)
    (hzero : f ≠ .zero) (hnegative : f ≠ .negative) :
    (st.write f v).describe result = (st.describe result).write f v := by
  rw [describe, describe, write_comm st v _ hzero, write_comm _ v _ hnegative]

end StatusWord

namespace Operands

variable {x : Operands} {st : StatusWord}

/-! ## Taking a division back -/

theorem target_add_of_whole (hw : x.status.width = .w64) (hclear : x.status.carry = false) :
    x.add.target = x.target + x.operand := by
  have hcarry : x.carryIn = 0#64 := by
    rw [carryIn, hclear]
    rfl
  have htarget : x.add.target = Cell.extend .w64 (x.target + x.operand + x.carryIn) := by
    rw [← hw]
    rfl
  rw [htarget, Cell.isExtended_whole, hcarry, BitVec.add_zero]

/-- Multiplies the quotient that a division left by the divisor and adds the remainder, both under
one status word. -/
def restore (after : Operands) (divisor : Cell) (st : StatusWord) : Operands :=
  let scaled := (Operands.mk after.target divisor st).multiply
  (Operands.mk scaled.target after.operand scaled.status).add

theorem target_restore (after : Operands) (divisor : Cell) (hw : st.width = .w64)
    (hclear : st.carry = false) :
    (restore after divisor st).target = after.target * divisor + after.operand := by
  -- The product writes neither the width nor the carry that the sum takes in.
  have hwidth : (Operands.mk after.target divisor st).multiply.status.width = .w64 :=
    (read_apply_of_not_mem _ .multiply .width (by decide)).trans hw
  have hcarry : (Operands.mk after.target divisor st).multiply.status.carry = false :=
    (read_apply_of_not_mem _ .multiply .carry (by decide)).trans hclear
  have hsum : (restore after divisor st).target =
      (Operands.mk after.target divisor st).multiply.target + after.operand :=
    target_add_of_whole hwidth hcarry
  rw [hsum, target_multiply, product, BitVec.ofInt_mul, BitVec.ofInt_toInt, BitVec.ofInt_toInt]

/-! ## What a division leaves -/

/-- What a division by another number than zero leaves. -/
structure Divided (x after : Operands) : Prop where
  /-- But for the quotient that wraps, target and operand are the quotient and the remainder. -/
  exact : ¬ (x.target.toInt = -2 ^ 63 ∧ x.operand.toInt = -1) →
    Truncates x.target.toInt x.operand.toInt after.target.toInt after.operand.toInt ∧
      ∀ q r, Truncates x.target.toInt x.operand.toInt q r →
        q = after.target.toInt ∧ r = after.operand.toInt
  wrapped : x.target.toInt = -2 ^ 63 → x.operand.toInt = -1 →
    after.target.toInt = -2 ^ 63 ∧ after.operand.toInt = 0
  account : after.target * x.operand + after.operand = x.target
  restored : ∀ st : StatusWord, st.width = .w64 → st.carry = false →
    (after.restore x.operand st).target = x.target
  /-- Zero and negative tell of the quotient. -/
  quotient : after.status.Describes after.target.toInt
  /-- Overflow tells that the remainder is negative. -/
  remainder : after.status.read .overflow = true ↔ after.operand.toInt < 0
  kept : ∀ f : Field, f ∉ [.overflow, .negative, .zero] → after.status.read f = x.status.read f

theorem divided_divideNonzero (hnonzero : x.operand ≠ 0#64) : x.Divided x.divideNonzero := by
  have hdivisor : x.operand.toInt ≠ 0 := by
    intro hzero
    exact hnonzero (BitVec.toInt_inj.mp hzero)
  have haccount : x.divideNonzero.target * x.operand + x.divideNonzero.operand = x.target :=
    Cell.sdiv_mul_add_srem x.target x.operand
  refine ⟨?_, ?_, haccount, ?_, ?_, ?_, ?_⟩
  · intro hover
    have hquotient : x.divideNonzero.target.toInt = x.target.toInt.tdiv x.operand.toInt :=
      Cell.toInt_sdiv_of_not_overflows hover
    have hremainder : x.divideNonzero.operand.toInt = x.target.toInt.tmod x.operand.toInt :=
      BitVec.toInt_srem x.target x.operand
    rw [hquotient, hremainder]
    exact ⟨truncates_tdiv hdivisor, fun q r h => h.eq⟩
  · intro hdividend hdivisor
    exact Cell.toInt_sdiv_of_overflows ⟨hdividend, hdivisor⟩
  · intro st hw hclear
    rw [target_restore _ _ hw hclear]
    exact haccount
  · exact (StatusWord.describes_describe _ _).write _ (by decide) (by decide)
  · simp only [divideNonzero]
    rw [StatusWord.read_write, Cell.isNegative_eq, decide_eq_true_iff]
  · intro f hf
    have hread := read_apply_of_not_mem x .divide f hf
    rwa [apply, divide_of_nonzero hnonzero] at hread

/-- Writing the width and dividing may change places. -/
theorem divideNonzero_resized (x : Operands) (w : Width) :
    { x with status := x.status.write .width w }.divideNonzero =
      { x.divideNonzero with status := x.divideNonzero.status.write .width w } := by
  have hwrites : ∀ (quotient : Cell) (negative : Bool),
      ((x.status.write .width w).describe quotient).write .overflow negative =
        ((x.status.describe quotient).write .overflow negative).write .width w := by
    intro quotient negative
    rw [StatusWord.describe_write _ _ _ (by decide) (by decide)]
    exact StatusWord.write_comm _ _ _ (by decide)
  simp only [divideNonzero, hwrites]

/-- **Signed division.** A zero divisor is refused and nothing changes. Any other division succeeds
and leaves what it should. And the operand width makes no difference: dividing under another width
answers the same, and leaves the same under that width. -/
theorem divide_exact :
    (∀ x : Operands,
      if x.operand = 0#64 then
        x.divide.result = .error .divisionByZero ∧ x.divide.state = x
      else
        x.divide.result = .ok () ∧ x.Divided x.divide.state) ∧
    ∀ (x : Operands) (w : Width),
      let resized : Operands := { x with status := x.status.write .width w }
      resized.divide.result = x.divide.result ∧
        resized.divide.state =
          { x.divide.state with status := x.divide.state.status.write .width w } := by
  constructor
  · intro x
    by_cases hzero : x.operand = 0#64
    · have hrefused : x.operand.isZero := beq_iff_eq.mpr hzero
      rw [if_pos hzero, divide, if_pos hrefused]
      exact ⟨rfl, rfl⟩
    · rw [if_neg hzero, divide_of_nonzero hzero]
      exact ⟨rfl, divided_divideNonzero hzero⟩
  · intro x w resized
    by_cases hzero : x.operand = 0#64
    · have hrefused : x.operand.isZero := beq_iff_eq.mpr hzero
      have hrefused' : resized.operand.isZero := hrefused
      rw [divide, divide, if_pos hrefused, if_pos hrefused']
      exact ⟨rfl, rfl⟩
    · have hresized : resized.operand ≠ 0#64 := hzero
      rw [divide_of_nonzero hzero, divide_of_nonzero hresized]
      exact ⟨rfl, divideNonzero_resized x w⟩

/-- The number -7 by 2: the quotient -3 and the remainder -1, on which overflow is set. -/
theorem divide_exact_minus_seven :
    let x : Operands := ⟨-7#64, 2#64, StatusWord.clear⟩
    let after := x.divide.state
    (x.operand ≠ 0#64 ∧ Truncates (-7) 2 (-3) (-1)) ∧
      (after.target.toInt = -3 ∧ after.operand.toInt = -1) ∧
      after.status.read .overflow = true := by
  intro x after
  have hnonzero : x.operand ≠ 0#64 := by decide
  have htruncates : Truncates (-7) 2 (-3) (-1) := ⟨rfl, by decide, Or.inr rfl⟩
  have hdivided := divide_exact.1 x
  rw [if_neg hnonzero] at hdivided
  obtain ⟨-, hafter⟩ := hdivided
  obtain ⟨-, hunique⟩ := hafter.exact (by decide)
  obtain ⟨hquotient, hremainder⟩ := hunique (-3) (-1) htruncates
  have hnegative : after.operand.toInt < 0 := by
    rw [← hremainder]
    decide
  exact ⟨⟨hnonzero, htruncates⟩, ⟨hquotient.symm, hremainder.symm⟩,
    hafter.remainder.mpr hnegative⟩

end Operands

end Datapath
