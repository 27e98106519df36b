import Datapath.Alu.Unit
import Datapath.Proofs.CellValue

/-!
# Carry and borrow

Addition and subtraction find their carry by comparing whole cells: a sum carries if it comes out
below the target, a difference borrows if it comes out above it. On sign extended cells this says
something about the low bits. It is the carry, or the borrow, out of the operand width, with one
exception: an operand of all ones that meets a set carry moves the target once round all sixty-four
bits, the comparison finds the target where it was, and the carry that did occur is lost.

`carry_add_iff` and `carry_subtract_iff` are the two rules with their exception, and `add_limb` and
`subtract_limb` the arithmetic of one limb that follows: nothing is lost but the carry of the
exceptional case.
-/

set_option autoImplicit false

namespace Datapath.Operands

variable {w : Width} {x : Operands}

/-! ## What the flags are read from -/

theorem read_describe_of_ne (st : StatusWord) (result : Cell) {f : Field} (hzero : Field.zero ≠ f)
    (hnegative : Field.negative ≠ f) : (st.describe result).read f = st.read f := by
  rw [StatusWord.describe, StatusWord.read_write_of_ne _ _ hnegative,
    StatusWord.read_write_of_ne _ _ hzero]

theorem carry_add (x : Operands) :
    x.add.status.carry = (x.target + x.operand + x.carryIn).ult x.target := by
  simp only [add, StatusWord.carry]
  rw [read_describe_of_ne _ _ (by decide) (by decide),
    StatusWord.read_write_of_ne _ _ (by decide), StatusWord.read_write]

theorem carry_subtract (x : Operands) :
    x.subtract.status.carry = x.target.ult (x.target - x.operand - x.carryIn) := by
  simp only [subtract, StatusWord.carry]
  rw [read_describe_of_ne _ _ (by decide) (by decide),
    StatusWord.read_write_of_ne _ _ (by decide), StatusWord.read_write]

theorem width_add (x : Operands) : x.add.status.width = x.status.width := by
  simp only [add, StatusWord.width]
  rw [read_describe_of_ne _ _ (by decide) (by decide),
    StatusWord.read_write_of_ne _ _ (by decide), StatusWord.read_write_of_ne _ _ (by decide)]

theorem width_subtract (x : Operands) : x.subtract.status.width = x.status.width := by
  simp only [subtract, StatusWord.width]
  rw [read_describe_of_ne _ _ (by decide) (by decide),
    StatusWord.read_write_of_ne _ _ (by decide), StatusWord.read_write_of_ne _ _ (by decide)]

theorem toNat_carryIn (x : Operands) : x.carryIn.toNat = x.status.carry.toNat := by
  unfold carryIn
  cases x.status.carry <;> rfl

theorem toNat_unsigned_carryIn (w : Width) (x : Operands) :
    (Cell.unsigned w x.carryIn).toNat = x.status.carry.toNat := by
  have hone : 1 < 2 ^ w.bits := by cases w <;> decide
  have hcarry : x.status.carry.toNat ≤ 1 := Bool.toNat_le _
  rw [Cell.unsigned, BitVec.toNat_setWidth, toNat_carryIn, Nat.mod_eq_of_lt (by omega)]

theorem unsigned_target_add (hw : x.status.width = w) :
    Cell.unsigned w x.add.target =
      Cell.unsigned w x.target + Cell.unsigned w x.operand + Cell.unsigned w x.carryIn := by
  simp only [add, hw, Cell.unsigned_extend, Cell.unsigned_add]

theorem unsigned_target_subtract (hw : x.status.width = w) :
    Cell.unsigned w x.subtract.target =
      Cell.unsigned w x.target - Cell.unsigned w x.operand - Cell.unsigned w x.carryIn := by
  simp only [subtract, hw, Cell.unsigned_extend, Cell.unsigned_sub]

/-! ## The exceptional case -/

/-- The operand is all ones and the carry is set: together they go once round the width, and the
comparison of whole cells does not see it. -/
def DropsCarry (w : Width) (x : Operands) : Prop :=
  x.status.carry = true ∧ Cell.unsigned w x.operand = BitVec.allOnes w.bits

instance (w : Width) (x : Operands) : Decidable (DropsCarry w x) :=
  inferInstanceAs (Decidable (_ ∧ _))

/-- The exceptional case in numbers: operand and carry fill the width exactly. -/
theorem dropsCarry_iff :
    x.DropsCarry w ↔
      (Cell.unsigned w x.operand).toNat + x.status.carry.toNat = 2 ^ w.bits := by
  have hlow := (Cell.unsigned w x.operand).isLt
  rw [DropsCarry, ← BitVec.toNat_inj, BitVec.toNat_allOnes]
  cases x.status.carry
  · simp only [Bool.toNat_false, Bool.false_eq_true, false_and, false_iff]
    omega
  · simp only [Bool.toNat_true, true_and]
    omega

/-- How many carries the flag fails to report: one in the exceptional case. -/
def droppedCarry (w : Width) (x : Operands) : Nat :=
  if x.DropsCarry w then 1 else 0

/-- A flag that reports a carry except in the exceptional case, which is itself a carry, reports it
together with the one that is dropped. -/
private theorem toNat_add_droppedCarry {flag : Bool} {out : Prop} [Decidable out]
    (hflag : flag = true ↔ out ∧ ¬ x.DropsCarry w) (hdrop : x.DropsCarry w → out) :
    flag.toNat + x.droppedCarry w = if out then 1 else 0 := by
  unfold droppedCarry
  by_cases hout : out <;> by_cases hd : x.DropsCarry w
  · have hclear : flag = false := by simpa [hout, hd] using hflag
    rw [hclear, if_pos hd, if_pos hout]; rfl
  · rw [hflag.mpr ⟨hout, hd⟩, if_neg hd, if_pos hout]; rfl
  · exact absurd (hdrop hd) hout
  · have hclear : flag = false := by simpa [hout, hd] using hflag
    rw [hclear, if_neg hd, if_neg hout]; rfl

/-! ## Addition -/

/-- **Carry.** The flag is the carry out of the operand width, except that it leaves clear in the
exceptional case. -/
theorem carry_add_iff (ht : Cell.IsExtended w x.target) (ho : Cell.IsExtended w x.operand) :
    x.add.status.carry = true ↔
      2 ^ w.bits ≤ (Cell.unsigned w x.target).toNat + (Cell.unsigned w x.operand).toNat
          + x.status.carry.toNat ∧ ¬ x.DropsCarry w := by
  have htarget := ht.toNat_eq_or
  have hoperand := ho.toNat_eq_or
  have hcarry : x.status.carry.toNat ≤ 1 := Bool.toNat_le _
  have hhalf := Cell.two_pow_bits w
  have hwhole := Cell.two_pow_bits_le w
  rw [carry_add, BitVec.ult, decide_eq_true_iff, BitVec.toNat_add, BitVec.toNat_add, toNat_carryIn,
    Nat.mod_add_mod, dropsCarry_iff]
  -- In each of the four cases of the two cells both sides are linear in their low bits.
  omega

/-- **One limb of a sum.** The low bits and the carry account for everything that was added, but for
the carry of the exceptional case. -/
theorem add_limb (hw : x.status.width = w) (ht : Cell.IsExtended w x.target)
    (ho : Cell.IsExtended w x.operand) :
    (Cell.unsigned w x.add.target).toNat
        + 2 ^ w.bits * (x.add.status.carry.toNat + x.droppedCarry w) =
      (Cell.unsigned w x.target).toNat + (Cell.unsigned w x.operand).toNat
        + x.status.carry.toNat := by
  have hlow := (Cell.unsigned w x.target).isLt
  have hlow' := (Cell.unsigned w x.operand).isLt
  have hcarry : x.status.carry.toNat ≤ 1 := Bool.toNat_le _
  rw [toNat_add_droppedCarry (carry_add_iff ht ho) (fun h => by rw [dropsCarry_iff] at h; omega),
    unsigned_target_add hw, BitVec.toNat_add, BitVec.toNat_add, toNat_unsigned_carryIn,
    Nat.mod_add_mod]
  -- Two limbs and a carry stay below twice the range, so the sum wraps once at most.
  by_cases hout : 2 ^ w.bits ≤ (Cell.unsigned w x.target).toNat
      + (Cell.unsigned w x.operand).toNat + x.status.carry.toNat
  · rw [if_pos hout, Nat.mod_eq_sub_mod hout, Nat.mod_eq_of_lt (by omega)]
    omega
  · rw [if_neg hout, Nat.mod_eq_of_lt (by omega)]
    omega

/-! ## Subtraction -/

/-- **Borrow.** The flag is the borrow into the operand width, except that it leaves clear in the
exceptional case. -/
theorem carry_subtract_iff (ht : Cell.IsExtended w x.target) (ho : Cell.IsExtended w x.operand) :
    x.subtract.status.carry = true ↔
      (Cell.unsigned w x.target).toNat <
          (Cell.unsigned w x.operand).toNat + x.status.carry.toNat ∧ ¬ x.DropsCarry w := by
  have htarget := ht.toNat_eq_or
  have hoperand := ho.toNat_eq_or
  have hcarry : x.status.carry.toNat ≤ 1 := Bool.toNat_le _
  have hhalf := Cell.two_pow_bits w
  have hwhole := Cell.two_pow_bits_le w
  rw [carry_subtract, BitVec.ult, decide_eq_true_iff, BitVec.toNat_sub, BitVec.toNat_sub,
    toNat_carryIn, dropsCarry_iff]
  -- The same four cases.
  omega

/-- **One limb of a difference.** What was subtracted comes back from the low bits and the borrow,
but for the borrow of the exceptional case. -/
theorem subtract_limb (hw : x.status.width = w) (ht : Cell.IsExtended w x.target)
    (ho : Cell.IsExtended w x.operand) :
    (Cell.unsigned w x.subtract.target).toNat + (Cell.unsigned w x.operand).toNat
        + x.status.carry.toNat =
      (Cell.unsigned w x.target).toNat
        + 2 ^ w.bits * (x.subtract.status.carry.toNat + x.droppedCarry w) := by
  have hlow := (Cell.unsigned w x.target).isLt
  have hlow' := (Cell.unsigned w x.operand).isLt
  have hresult := (Cell.unsigned w x.subtract.target).isLt
  have hcarry : x.status.carry.toNat ≤ 1 := Bool.toNat_le _
  -- Read backwards, the difference is a sum, and a sum of two limbs and a carry wraps once at most.
  have hback : ((Cell.unsigned w x.subtract.target).toNat + (Cell.unsigned w x.operand).toNat
      + x.status.carry.toNat) % 2 ^ w.bits = (Cell.unsigned w x.target).toNat := by
    rw [← toNat_unsigned_carryIn w x, ← Nat.mod_add_mod, ← BitVec.toNat_add, ← BitVec.toNat_add,
      unsigned_target_subtract hw, BitVec.sub_sub, BitVec.add_assoc, BitVec.sub_add_cancel]
  rw [toNat_add_droppedCarry (carry_subtract_iff ht ho)
    (fun h => by rw [dropsCarry_iff] at h; omega)]
  by_cases hwrap : 2 ^ w.bits ≤ (Cell.unsigned w x.subtract.target).toNat
      + (Cell.unsigned w x.operand).toNat + x.status.carry.toNat
  · rw [Nat.mod_eq_sub_mod hwrap, Nat.mod_eq_of_lt (by omega)] at hback
    rw [if_pos (by omega)]
    omega
  · rw [Nat.mod_eq_of_lt (by omega)] at hback
    rw [if_neg (by omega)]
    omega

end Datapath.Operands
