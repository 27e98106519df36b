import Datapath.Alu.Unit

/-!
# What an operation touches

Of the operations only division can fail, and it fails on a zero divisor without touching anything.
The operand changes only under the operations that are said to write it, and of the status word only
the four condition flags change: the bits below them are the same before and after.
-/

set_option autoImplicit false

namespace Datapath

namespace StatusWord

/-! ## The bits below the condition flags -/

/-- The bits that steer the machine, which lie below the condition flags. -/
def modes (w : StatusWord) : BitVec 28 :=
  w.bits.setWidth 28

theorem modes_write (w : StatusWord) {f : Field} (v : f.Value) (h : 28 ≤ f.offset) :
    (w.write f v).modes = w.modes := by
  apply BitVec.eq_of_getLsbD_eq
  intro i hi
  have hout : ¬ f.Covers i := by unfold Field.Covers; omega
  rw [modes, modes, BitVec.getLsbD_setWidth, BitVec.getLsbD_setWidth, getLsbD_write, if_neg hout]

theorem modes_zero_negative (w : StatusWord) (zero negative : Bool) :
    ((w.write .zero zero).write .negative negative).modes = w.modes := by
  rw [modes_write _ _ (by decide), modes_write _ _ (by decide)]

theorem modes_describe (w : StatusWord) (result : Cell) : (w.describe result).modes = w.modes :=
  modes_zero_negative w _ _

theorem modes_all_flags (w : StatusWord) (carry overflow : Bool) (result : Cell) :
    (((w.write .carry carry).write .overflow overflow).describe result).modes = w.modes := by
  rw [modes_describe, modes_write _ _ (by decide), modes_write _ _ (by decide)]

end StatusWord

theorem AluOp.writesOperand_iff (op : AluOp) :
    op.writesOperand ↔ op = .multiply ∨ op = .divide := by
  cases op <;> decide

namespace Operands

open StatusWord (modes_write modes_zero_negative modes_describe modes_all_flags)

variable (x : Operands)

/-! ## Operations by kind

A sum or a difference writes all four flags, a settled result and a wide product only zero and
negative, and a comparison and a quotient three of their own choice. -/

theorem modes_add : x.add.status.modes = x.status.modes :=
  modes_all_flags x.status _ _ _

theorem modes_subtract : x.subtract.status.modes = x.status.modes :=
  modes_all_flags x.status _ _ _

theorem modes_settle (result : Cell) : (x.settle result).status.modes = x.status.modes :=
  modes_describe x.status result

theorem modes_compare : x.compare.status.modes = x.status.modes := by
  simp only [compare]
  rw [modes_write _ _ (by decide), modes_write _ _ (by decide), modes_write _ _ (by decide)]

theorem modes_multiplyWide : x.multiplyWide.status.modes = x.status.modes := by
  rw [multiplyWide]
  by_cases h : (BitVec.ofInt 64 x.product).toInt = x.product
  · simp only [if_pos h]
    exact modes_zero_negative x.status _ _
  · simp only [if_neg h]
    exact modes_zero_negative x.status _ _

theorem modes_multiply : x.multiply.status.modes = x.status.modes := by
  rw [multiply]
  cases x.status.width with
  | w64 => exact modes_multiplyWide x
  -- At every other width the product is settled.
  | _ => exact modes_settle x _

theorem modes_divideNonzero : x.divideNonzero.status.modes = x.status.modes := by
  simp only [divideNonzero]
  rw [modes_write _ _ (by decide), modes_describe]

/-! ## Operations by name -/

/-- Division by zero is all that can fail. -/
theorem apply_result (op : AluOp) :
    (x.apply op).result =
      if op = .divide ∧ x.operand = 0#64 then .error .divisionByZero else .ok () := by
  cases op with
  | divide =>
    by_cases h : x.operand = 0#64
    · simp [apply, divide, Cell.isZero, h, Outcome.refuse]
    · simp [apply, divide, Cell.isZero, h, Outcome.done]
  | _ => rfl

theorem apply_state_of_error {op : AluOp} {fault : ArithmeticFault}
    (h : (x.apply op).result = .error fault) : (x.apply op).state = x := by
  cases op with
  | divide =>
    rw [apply, divide] at h ⊢
    by_cases hzero : x.operand.isZero
    · rw [if_pos hzero]
      rfl
    · rw [if_neg hzero] at h
      exact nomatch h
  | _ => exact nomatch h

theorem divide_of_nonzero {x : Operands} (h : x.operand ≠ 0#64) :
    x.divide = .done x.divideNonzero () := by
  have hzero : ¬ x.operand.isZero := fun hzero => h (eq_of_beq hzero)
  rw [divide, if_neg hzero]

/-- The table of the operations that write the operand leaves none of them out. -/
theorem operand_apply {op : AluOp} (h : op.writesOperand = false) :
    (x.apply op).state.operand = x.operand := by
  cases op with
  | multiply => exact nomatch h
  | divide => exact nomatch h
  | _ => rfl

theorem modes_apply (op : AluOp) : (x.apply op).state.status.modes = x.status.modes := by
  cases op with
  | add => exact modes_add x
  | subtract => exact modes_subtract x
  | and | or | xor => exact modes_settle x _
  | compare => exact modes_compare x
  | shiftLeft | shiftRight | shiftRightArithmetic => exact modes_settle x _
  | multiply => exact modes_multiply x
  | divide =>
    rw [apply, divide]
    by_cases hzero : x.operand.isZero
    · rw [if_pos hzero]
      rfl
    · rw [if_neg hzero]
      exact modes_divideNonzero x

end Operands

end Datapath
