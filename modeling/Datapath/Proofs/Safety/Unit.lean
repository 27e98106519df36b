import Datapath.Proofs.Product
import Datapath.Proofs.Safety.Primitive

/-!
# The arithmetic unit never traps

The status word and the arithmetic unit over primitives that have a domain. A field is cut out of the
word and put into it by shifts, whose counts are the positions of the fields, and so below thirty-two.
The unit shifts by whatever the operand holds, but only after it has asked whether that is below
sixty-four; it divides only after it has asked for a zero divisor; and the product of two cells is a
number of 127 bits at most, far inside the 128 that it is computed in.
-/

set_option autoImplicit false

namespace Datapath

/-! ## The status word -/

namespace StatusWord

/-- The value of a field, masked out and shifted down. -/
def checkedRead (w : StatusWord) (f : Field) : Checked f.Value := do
  let low ← Checked.shiftRight (w.bits &&& mask f) f.offset
  .ok (Coded.decode (low.setWidth (Coded.size f.Value)))

/-- The word with a field replaced by a code that is shifted up and masked. -/
def checkedWrite (w : StatusWord) (f : Field) (v : f.Value) : Checked StatusWord := do
  let high ← Checked.shiftLeft ((Coded.code v).setWidth 32) f.offset
  .ok ⟨(w.bits &&& ~~~ mask f) ||| (high &&& mask f)⟩

theorem offset_lt (f : Field) : f.offset < 32 := by
  cases f <;> decide

@[simp] theorem checkedRead_eq (w : StatusWord) (f : Field) :
    w.checkedRead f = .ok (w.read f) := by
  have hlow : ((w.bits &&& mask f) >>> f.offset).setWidth (Coded.size f.Value) =
      w.bits.extractLsb' f.offset (Coded.size f.Value) := by
    apply BitVec.eq_of_getLsbD_eq
    intro i hi
    have hcover : f.Covers (f.offset + i) := ⟨Nat.le_add_right _ _, Nat.add_lt_add_left hi _⟩
    simp [getLsbD_mask, hcover, hi]
  rw [checkedRead, Checked.shiftRight, Checked.within_of (offset_lt f), Checked.ok_bind, hlow, read]

@[simp] theorem checkedWrite_eq (w : StatusWord) (f : Field) (v : f.Value) :
    w.checkedWrite f v = .ok (w.write f v) := by
  have hhigh : ((Coded.code v).setWidth 32 <<< f.offset) &&& mask f =
      (Coded.code v).setWidth 32 <<< f.offset := by
    apply BitVec.eq_of_getLsbD_eq
    intro i hi
    rw [BitVec.getLsbD_and, getLsbD_mask]
    by_cases hcover : f.Covers i
    · simp [hcover]
    · have hout : i < f.offset ∨ Coded.size f.Value ≤ i - f.offset := by
        have hsize : f.size = Coded.size f.Value := rfl
        unfold Field.Covers at hcover
        omega
      rcases hout with hlow | hbeyond
      · simp [hlow]
      · simp [BitVec.getLsbD_of_ge (Coded.code v) (i - f.offset) hbeyond]
  rw [checkedWrite, Checked.shiftLeft, Checked.within_of (offset_lt f), Checked.ok_bind, hhigh,
    write]

def checkedAssign (w : StatusWord) (flag : Flag) (on : Bool) : Checked StatusWord :=
  match flag with
  | .carry => w.checkedWrite .carry on
  | .overflow => w.checkedWrite .overflow on
  | .zero => w.checkedWrite .zero on
  | .negative => w.checkedWrite .negative on

@[simp] theorem checkedAssign_eq (w : StatusWord) (flag : Flag) (on : Bool) :
    w.checkedAssign flag on = .ok (w.assign flag on) := by
  cases flag <;> simp [checkedAssign, assign]

def checkedFlag (w : StatusWord) : Flag → Checked Bool
  | .carry => w.checkedRead .carry
  | .overflow => w.checkedRead .overflow
  | .zero => w.checkedRead .zero
  | .negative => w.checkedRead .negative

@[simp] theorem checkedFlag_eq (w : StatusWord) (flag : Flag) :
    w.checkedFlag flag = .ok (w.flag flag) := by
  cases flag <;> simp [checkedFlag, flag]

def checkedDescribe (w : StatusWord) (result : Cell) : Checked StatusWord := do
  let described ← w.checkedWrite .zero result.isZero
  described.checkedWrite .negative result.isNegative

@[simp] theorem checkedDescribe_eq (w : StatusWord) (result : Cell) :
    w.checkedDescribe result = .ok (w.describe result) := by
  simp [checkedDescribe, describe]

end StatusWord

/-! ## The width of an operand -/

/-- Eight bits, doubled as often as the code of the width says. -/
def Width.checkedBits (w : Width) : Checked Nat := do
  let bits ← Checked.shiftLeft 8#32 (Coded.code w).toNat
  .ok bits.toNat

@[simp] theorem Width.checkedBits_eq (w : Width) : w.checkedBits = .ok w.bits := by
  cases w <;> rfl

namespace Operands

/-! ## Sums, logic and comparison -/

def checkedAdd (x : Operands) : Checked Operands := do
  let carryIn ← x.status.checkedRead .carry
  let width ← x.status.checkedRead .width
  let sum := x.target + x.operand + (BitVec.ofBool carryIn).setWidth 64
  let result := Cell.extend width sum
  let overflow :=
    x.target.isNegative == x.operand.isNegative && x.target.isNegative != result.isNegative
  let status ← x.status.checkedWrite .carry (sum.ult x.target)
  let status ← status.checkedWrite .overflow overflow
  let status ← status.checkedDescribe result
  .ok { x with target := result, status := status }

@[simp] theorem checkedAdd_eq (x : Operands) : x.checkedAdd = .ok x.add := by
  simp [checkedAdd, add, carryIn, StatusWord.carry, StatusWord.width]

def checkedSubtract (x : Operands) : Checked Operands := do
  let borrowIn ← x.status.checkedRead .carry
  let width ← x.status.checkedRead .width
  let difference := x.target - x.operand - (BitVec.ofBool borrowIn).setWidth 64
  let result := Cell.extend width difference
  let overflow :=
    x.target.isNegative != x.operand.isNegative && x.target.isNegative != result.isNegative
  let status ← x.status.checkedWrite .carry (x.target.ult difference)
  let status ← status.checkedWrite .overflow overflow
  let status ← status.checkedDescribe result
  .ok { x with target := result, status := status }

@[simp] theorem checkedSubtract_eq (x : Operands) : x.checkedSubtract = .ok x.subtract := by
  simp [checkedSubtract, subtract, carryIn, StatusWord.carry, StatusWord.width]

def checkedSettle (x : Operands) (result : Cell) : Checked Operands := do
  let status ← x.status.checkedDescribe result
  .ok { x with target := result, status := status }

@[simp] theorem checkedSettle_eq (x : Operands) (result : Cell) :
    x.checkedSettle result = .ok (x.settle result) := by
  simp [checkedSettle, settle]

def checkedSettleExtended (x : Operands) (value : Cell) : Checked Operands := do
  let width ← x.status.checkedRead .width
  x.checkedSettle (Cell.extend width value)

@[simp] theorem checkedSettleExtended_eq (x : Operands) (value : Cell) :
    x.checkedSettleExtended value = .ok (x.settleExtended value) := by
  simp [checkedSettleExtended, settleExtended, StatusWord.width]

def checkedCompare (x : Operands) : Checked Operands := do
  let unsigned := x.operand.ule x.target
  let signed :=
    (!x.target.isNegative && x.operand.isNegative) ||
      (x.target.isNegative == x.operand.isNegative && unsigned)
  let status ← x.status.checkedWrite .carry unsigned
  let status ← status.checkedWrite .overflow signed
  let status ← status.checkedWrite .zero (x.target == x.operand)
  .ok { x with status := status }

@[simp] theorem checkedCompare_eq (x : Operands) : x.checkedCompare = .ok x.compare := by
  simp [checkedCompare, compare]

/-! ## Shifts -/

def checkedShiftLeft (x : Operands) : Checked Operands := do
  let shifted ←
    if 64 ≤ x.operand.toNat then .ok 0#64 else Checked.shiftLeft x.target x.operand.toNat
  x.checkedSettleExtended shifted

@[simp] theorem checkedShiftLeft_eq (x : Operands) : x.checkedShiftLeft = .ok x.shiftLeft := by
  rw [checkedShiftLeft, shiftLeft]
  by_cases h : 64 ≤ x.operand.toNat
  · simp [h]
  · simp [h, Checked.shiftLeft, Checked.within_of (Nat.lt_of_not_le h)]

def checkedShiftRight (x : Operands) : Checked Operands := do
  let width ← x.status.checkedRead .width
  let low := Cell.truncate width x.target
  let shifted ← if 64 ≤ x.operand.toNat then .ok 0#64 else Checked.shiftRight low x.operand.toNat
  x.checkedSettleExtended shifted

@[simp] theorem checkedShiftRight_eq (x : Operands) : x.checkedShiftRight = .ok x.shiftRight := by
  rw [checkedShiftRight, shiftRight]
  by_cases h : 64 ≤ x.operand.toNat
  · simp [h]
  · simp [h, Checked.shiftRight, Checked.within_of (Nat.lt_of_not_le h), StatusWord.width]

/-- Only a negative target is shifted as a signed number. -/
def checkedShiftRightArithmetic (x : Operands) : Checked Operands := do
  let shifted ←
    if 64 ≤ x.operand.toNat then
      .ok (if x.target.isNegative then BitVec.allOnes 64 else 0#64)
    else if x.target.isNegative then
      Checked.shiftRightSigned x.target x.operand.toNat
    else
      Checked.shiftRight x.target x.operand.toNat
  x.checkedSettle shifted

@[simp] theorem checkedShiftRightArithmetic_eq (x : Operands) :
    x.checkedShiftRightArithmetic = .ok x.shiftRightArithmetic := by
  rw [checkedShiftRightArithmetic, shiftRightArithmetic]
  by_cases h : 64 ≤ x.operand.toNat
  · simp [h]
  · have hcount : x.operand.toNat < 64 := Nat.lt_of_not_le h
    by_cases hsign : x.target.isNegative
    · simp [h, hsign, Checked.shiftRightSigned, Checked.within_of hcount]
    · have hmsb : x.target.msb = false := by simpa [Cell.isNegative] using hsign
      simp [h, hsign, Checked.shiftRight, Checked.within_of hcount,
        BitVec.sshiftRight_eq_of_msb_false hmsb]

/-! ## Products and quotients -/

/-- The product of two whole cells, computed in 128 bits; its upper half comes down by a shift. -/
def checkedMultiplyWide (x : Operands) : Checked Operands := do
  let product ← Checked.signed 128 (x.target.toInt * x.operand.toInt)
  let narrow := BitVec.ofInt 64 product
  if narrow.toInt = product then
    let status ← x.status.checkedWrite .zero (product == 0)
    let status ← status.checkedWrite .negative (decide (product < 0))
    .ok
      { target := narrow
        operand := if product < 0 then BitVec.allOnes 64 else 0#64
        status := status }
  else
    let wide := BitVec.ofInt 128 product
    let low : Cell := wide.setWidth 64
    let upper ← Checked.shiftRightSigned wide 64
    let high : Cell := upper.setWidth 64
    let status ← x.status.checkedWrite .zero (low.isZero && high.isZero)
    let status ← status.checkedWrite .negative high.isNegative
    .ok { target := low, operand := high, status := status }

/-- What a shift by half the bits brings down is the upper half, whatever comes in from above. -/
theorem setWidth_sshiftRight_eq (wide : BitVec 128) :
    (wide.sshiftRight 64).setWidth 64 = wide.extractLsb' 64 64 := by
  apply BitVec.eq_of_getLsbD_eq
  intro i hi
  have hin : 64 + i < 128 := by omega
  have hnotout : ¬ 128 ≤ i := by omega
  simp [BitVec.getLsbD_sshiftRight, hi, hin, hnotout]

@[simp] theorem checkedMultiplyWide_eq (x : Operands) :
    x.checkedMultiplyWide = .ok x.multiplyWide := by
  have hproduct : Checked.signed 128 (x.target.toInt * x.operand.toInt) = .ok x.product :=
    Checked.within_of x.product_mem_range
  have hshift : Checked.shiftRightSigned (BitVec.ofInt 128 x.product) 64 =
      .ok ((BitVec.ofInt 128 x.product).sshiftRight 64) := Checked.within_of (by decide)
  have hlow : (BitVec.ofInt 128 x.product).setWidth 64 =
      (BitVec.ofInt 128 x.product).extractLsb' 0 64 := BitVec.setWidth_eq_extractLsb' (by decide)
  rw [checkedMultiplyWide, hproduct, Checked.ok_bind, multiplyWide]
  by_cases hnarrow : (BitVec.ofInt 64 x.product).toInt = x.product
  · simp only [if_pos hnarrow, StatusWord.checkedWrite_eq, Checked.ok_bind]
  · simp only [if_neg hnarrow, hshift, StatusWord.checkedWrite_eq, Checked.ok_bind, hlow,
      setWidth_sshiftRight_eq]

def checkedMultiply (x : Operands) : Checked Operands := do
  let width ← x.status.checkedRead .width
  match width with
  | .w64 => x.checkedMultiplyWide
  | _ => x.checkedSettle (BitVec.ofInt 64 x.product)

@[simp] theorem checkedMultiply_eq (x : Operands) : x.checkedMultiply = .ok x.multiply := by
  rw [checkedMultiply, multiply, StatusWord.width, StatusWord.checkedRead_eq, Checked.ok_bind]
  cases x.status.read .width <;> simp [multiplyNarrow]

def checkedDivide (x : Operands) : Checked (Outcome Operands ArithmeticFault Unit) :=
  if x.operand.isZero then
    .ok (.refuse x .divisionByZero (.zeroDivisor x.target))
  else do
    let quotient ← Checked.quotient x.target x.operand
    let remainder ← Checked.remainder x.target x.operand
    let status ← x.status.checkedDescribe quotient
    let status ← status.checkedWrite .overflow remainder.isNegative
    .ok (.done { target := quotient, operand := remainder, status := status } ())

@[simp] theorem checkedDivide_eq (x : Operands) : x.checkedDivide = .ok x.divide := by
  rw [checkedDivide, divide]
  by_cases h : x.operand.isZero
  · simp [h]
  · have hnonzero : x.operand ≠ 0#64 := by simpa [Cell.isZero] using h
    simp [h, Checked.quotient, Checked.remainder, Checked.within_of hnonzero, divideNonzero]

/-! ## Running an operation by name -/

def checkedApply (op : AluOp) (x : Operands) :
    Checked (Outcome Operands ArithmeticFault Unit) :=
  let done (after : Checked Operands) : Checked (Outcome Operands ArithmeticFault Unit) := do
    .ok (.done (← after) ())
  match op with
  | .add => done x.checkedAdd
  | .subtract => done x.checkedSubtract
  | .and => done (x.checkedSettleExtended (x.target &&& x.operand))
  | .or => done (x.checkedSettleExtended (x.target ||| x.operand))
  | .xor => done (x.checkedSettleExtended (x.target ^^^ x.operand))
  | .compare => done x.checkedCompare
  | .shiftLeft => done x.checkedShiftLeft
  | .shiftRight => done x.checkedShiftRight
  | .shiftRightArithmetic => done x.checkedShiftRightArithmetic
  | .multiply => done x.checkedMultiply
  | .divide => x.checkedDivide

/-- **No operation of the unit traps**, whatever its operands and its status word are. -/
@[simp] theorem checkedApply_eq (op : AluOp) (x : Operands) :
    x.checkedApply op = .ok (x.apply op) := by
  cases op <;> simp [checkedApply, apply, conjoin, disjoin, differ]

end Operands

end Datapath
