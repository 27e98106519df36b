import Datapath.Proofs.Dependence
import Datapath.Proofs.SignedSum

/-!
# Products

The exact product of two signed cells is a number of 127 bits at most, so two cells side by side hold
it, and two numbers of half a cell have a product that one cell holds. At the whole cell the unit has
two ways to a product: one that fits a cell is put into the target and its sign is spread over the
operand, any other is cut in two. Both leave the same 128 bits (`append_multiplyWide`), and that the
flags tell of the product follows from the halves, whichever way they came about.

Whatever the width is, the target is the product modulo the whole cell (`target_multiply`).
-/

set_option autoImplicit false

namespace Datapath

namespace Operands

open Cell (IsExtended)

variable {w : Width} {x : Operands}

/-! ## The size of a product -/

theorem natAbs_product_le {m : Nat} (ht : x.target.toInt.natAbs ≤ m)
    (ho : x.operand.toInt.natAbs ≤ m) : x.product.natAbs ≤ m * m := by
  rw [product, Int.natAbs_mul]
  exact Nat.mul_le_mul ht ho

theorem product_mem_range (x : Operands) :
    -2 ^ 127 ≤ x.product ∧ x.product < 2 ^ 127 := by
  have habs : ∀ c : Cell, c.toInt.natAbs ≤ 2 ^ 63 := by
    intro c
    have hle := c.le_toInt
    have hlt := c.toInt_lt
    omega
  have hproduct := natAbs_product_le (habs x.target) (habs x.operand)
  omega

theorem toInt_ofInt_product (x : Operands) : (BitVec.ofInt 128 x.product).toInt = x.product := by
  obtain ⟨hle, hlt⟩ := product_mem_range x
  exact BitVec.toInt_ofInt_eq_self (by decide) hle hlt

/-- Numbers of a width below the whole cell are numbers of half a cell. -/
theorem toInt_ofInt_product_of_isExtended (hnarrow : w ≠ .w64) (ht : IsExtended w x.target)
    (ho : IsExtended w x.operand) : (BitVec.ofInt 64 x.product).toInt = x.product := by
  have hhalf : (2 : Int) ^ (w.bits - 1) ≤ 2 ^ 31 := by
    cases w with
    | w64 => exact absurd rfl hnarrow
    | _ => decide
  have habs : ∀ c : Cell, IsExtended w c → c.toInt.natAbs ≤ 2 ^ 31 := by
    intro c hc
    obtain ⟨hle, hlt⟩ := (Cell.isExtended_iff_toInt w c).mp hc
    omega
  have hproduct := natAbs_product_le (habs _ ht) (habs _ ho)
  exact BitVec.toInt_ofInt_eq_self (by decide) (by omega) (by omega)

/-! ## Two halves -/

/-- A number that fits one cell, sign extended, is the number in two cells. -/
theorem append_of_fits {p : Int} (hle : -2 ^ 127 ≤ p) (hlt : p < 2 ^ 127)
    (hfits : (BitVec.ofInt 64 p).toInt = p) :
    (if p < 0 then BitVec.allOnes 64 else 0#64) ++ BitVec.ofInt 64 p = BitVec.ofInt 128 p := by
  have hsign : (BitVec.ofInt 64 p).msb = decide (p < 0) := by
    rw [BitVec.msb_eq_toInt, hfits]
  have happend := BitVec.signExtend_eq_append_of_le (x := BitVec.ofInt 64 p)
    (show 64 ≤ 128 by decide)
  simp only [hsign, decide_eq_true_eq, BitVec.cast_eq] at happend
  rw [← happend, ← BitVec.toInt_inj, BitVec.toInt_signExtend_of_le (by decide), hfits,
    BitVec.toInt_ofInt_eq_self (by decide) hle hlt]

/-- **Two ways, one law.** The halves that a product of whole cells leaves are the product in 128
bits. -/
theorem append_multiplyWide (x : Operands) :
    x.multiplyWide.operand ++ x.multiplyWide.target = BitVec.ofInt 128 x.product := by
  obtain ⟨hle, hlt⟩ := product_mem_range x
  unfold multiplyWide
  by_cases hfits : (BitVec.ofInt 64 x.product).toInt = x.product
  · simp only [if_pos hfits]
    exact append_of_fits hle hlt hfits
  · simp only [if_neg hfits]
    exact (BitVec.extractLsb'_append_extractLsb'_eq_extractLsb' rfl).trans BitVec.extractLsb'_eq_self

/-- The halves as numbers: the high one counts, with its sign, and the low one comes on top. -/
theorem value_multiplyWide (x : Operands) :
    2 ^ 64 * x.multiplyWide.operand.toInt + x.multiplyWide.target.toNat = x.product := by
  have hhalves := congrArg BitVec.toInt (append_multiplyWide x)
  rw [toInt_ofInt_product, BitVec.toInt_append, if_neg (by decide)] at hhalves
  exact hhalves

/-- Neither half alone tells whether the product is zero, and the high one alone tells its sign. -/
theorem describes_multiplyWide (x : Operands) : x.multiplyWide.status.Describes x.product := by
  have hvalue := value_multiplyWide x
  unfold multiplyWide at hvalue ⊢
  by_cases hfits : (BitVec.ofInt 64 x.product).toInt = x.product
  · simp only [if_pos hfits]
    exact StatusWord.describes_of beq_iff_eq decide_eq_true_iff
  · simp only [if_neg hfits] at hvalue ⊢
    generalize (BitVec.ofInt 128 x.product).extractLsb' 0 64 = low at hvalue ⊢
    generalize (BitVec.ofInt 128 x.product).extractLsb' 64 64 = high at hvalue ⊢
    have hlow := low.isLt
    refine StatusWord.describes_of ?_ ?_
    · rw [Bool.and_eq_true, Cell.isZero_iff high, Cell.isZero, beq_iff_eq, ← BitVec.toNat_inj,
        BitVec.toNat_zero]
      omega
    · rw [Cell.isNegative_eq, decide_eq_true_iff]
      omega

/-! ## The target -/

theorem setWidth_ofInt_whole (p : Int) :
    (BitVec.ofInt 128 p).setWidth 64 = BitVec.ofInt 64 p := by
  have hdvd : 2 ^ 64 ∣ 2 ^ 128 := Nat.pow_dvd_pow 2 (by decide)
  rw [← BitVec.toInt_inj, BitVec.toInt_setWidth, BitVec.toInt_ofInt,
    ← Int.bmod_bmod_of_dvd hdvd, ← BitVec.toInt_eq_toNat_bmod, BitVec.toInt_ofInt,
    Int.bmod_bmod_of_dvd hdvd]

theorem target_multiplyWide (x : Operands) :
    x.multiplyWide.target = BitVec.ofInt 64 x.product := by
  rw [← setWidth_ofInt_whole, ← append_multiplyWide, BitVec.setWidth_append_eq_right]

theorem multiply_of_whole (hw : x.status.width = .w64) : x.multiply = x.multiplyWide := by
  simp only [multiply, hw]

theorem multiply_of_narrow (hw : x.status.width ≠ .w64) : x.multiply = x.multiplyNarrow := by
  unfold multiply
  cases hwidth : x.status.width with
  | w64 => exact absurd hwidth hw
  | _ => rfl

/-- At every width the target is the product modulo the whole cell. -/
theorem target_multiply (x : Operands) : x.multiply.target = BitVec.ofInt 64 x.product := by
  by_cases hw : x.status.width = .w64
  · rw [multiply_of_whole hw]
    exact target_multiplyWide x
  · rw [multiply_of_narrow hw]
    rfl

/-! ## Exactness -/

/-- **A signed product is exact.** At the whole cell the operand and the target, side by side, are
the product of the two signed cells, and zero and negative tell of it. At any other width the operand
stays and the target is the product modulo the whole cell; if both cells are sign extended at the
width, the target is the product itself and zero and negative tell of it. Carry and overflow never
change. -/
theorem multiply_exact (x : Operands) :
    let p := x.target.toInt * x.operand.toInt
    let after := x.multiply
    (x.status.width = .w64 →
      (after.operand ++ after.target).toInt = p ∧ after.status.Describes p) ∧
    (x.status.width ≠ .w64 →
      after.operand = x.operand ∧ after.target = BitVec.ofInt 64 p ∧
        (IsExtended x.status.width x.target → IsExtended x.status.width x.operand →
          after.target.toInt = p ∧ after.status.Describes p)) ∧
    after.status.read .carry = x.status.read .carry ∧
      after.status.read .overflow = x.status.read .overflow := by
  intro p after
  refine ⟨?_, ?_, read_apply_of_not_mem x .multiply .carry (by decide),
    read_apply_of_not_mem x .multiply .overflow (by decide)⟩
  · intro hw
    have hwide : after = x.multiplyWide := multiply_of_whole hw
    rw [hwide, append_multiplyWide, toInt_ofInt_product]
    exact ⟨rfl, describes_multiplyWide x⟩
  · intro hw
    have hnarrow : after = x.multiplyNarrow := multiply_of_narrow hw
    refine ⟨by rw [hnarrow]; rfl, target_multiply x, ?_⟩
    intro ht ho
    have hexact : after.target.toInt = p := by
      rw [target_multiply x]
      exact toInt_ofInt_product_of_isExtended hw ht ho
    refine ⟨hexact, ?_⟩
    -- Narrow products let the flags describe the target, which is the product here.
    have hdescribes := StatusWord.describes_describe x.status (BitVec.ofInt 64 x.product)
    rw [toInt_ofInt_product_of_isExtended hw ht ho] at hdescribes
    rw [hnarrow]
    exact hdescribes

/-- The least cell times itself is 2 to the 126 and leaves nothing in the target; the least number of
32 bits times itself is 2 to the 62 and fits. -/
theorem multiply_exact_least :
    let whole : Operands :=
      ⟨BitVec.twoPow 64 63, BitVec.twoPow 64 63, StatusWord.clear.write .width .w64⟩
    let half : Operands :=
      ⟨-BitVec.twoPow 64 31, -BitVec.twoPow 64 31, StatusWord.clear.write .width .w32⟩
    (whole.status.width = .w64 ∧ (whole.multiply.operand ++ whole.multiply.target).toInt = 2 ^ 126) ∧
      (half.status.width ≠ .w64 ∧ IsExtended half.status.width half.target ∧
        IsExtended half.status.width half.operand) ∧
      half.multiply.target.toInt = 2 ^ 62 := by
  intro whole half
  have hwhole : whole.status.width = .w64 := by decide
  have hhalf : half.status.width ≠ .w64 := by decide
  have htarget : IsExtended half.status.width half.target := by decide
  have hoperand : IsExtended half.status.width half.operand := by decide
  have hwide := ((multiply_exact whole).1 hwhole).1
  have hnarrow := (((multiply_exact half).2.1 hhalf).2.2 htarget hoperand).1
  exact ⟨⟨hwhole, hwide.trans (by decide)⟩, ⟨hhalf, htarget, hoperand⟩,
    hnarrow.trans (by decide)⟩

end Operands

end Datapath
