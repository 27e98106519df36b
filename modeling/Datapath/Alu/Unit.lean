import Datapath.Journal
import Datapath.Status.Word

/-!
# The arithmetic unit

Every operation takes a target cell, an operand cell and the status word, and gives the three back.
The cells carry no width: the operand width is the status word's, and the operation reports carry,
overflow, zero and negative into the same word. An operation writes the flags it is about and leaves
the rest of the word alone.

Addition, subtraction, the logical operations and the two logical shifts work on all sixty-four bits
and then cut the result down to the operand width by sign extension; the arithmetic shift, the
products and the quotient do not. Only division can fail, and then it changes nothing.
-/

set_option autoImplicit false

namespace Datapath

/-- What an operation works on. -/
structure Operands where
  /-- The register that receives the result. -/
  target : Cell
  /-- The second register, which a product or a quotient may write too. -/
  operand : Cell
  /-- Supplies the operand width and the carry, receives the flags. -/
  status : StatusWord
  deriving DecidableEq, Repr

/-- The word with its zero and negative flags set to describe a result. -/
def StatusWord.describe (w : StatusWord) (result : Cell) : StatusWord :=
  (w.write .zero result.isZero).write .negative result.isNegative

namespace Operands

/-! ## Addition and subtraction -/

/-- The carry flag as a number. -/
def carryIn (x : Operands) : Cell :=
  (BitVec.ofBool x.status.carry).setWidth 64

/-- Adds the operand and the carry. The carry leaves set if the sum of all sixty-four bits came out
below the target, overflow if both inputs have a sign that the result has not. -/
def add (x : Operands) : Operands :=
  let sum := x.target + x.operand + x.carryIn
  let result := Cell.extend x.status.width sum
  let carry := sum.ult x.target
  let overflow :=
    x.target.isNegative == x.operand.isNegative && x.target.isNegative != result.isNegative
  { x with
    target := result
    status := ((x.status.write .carry carry).write .overflow overflow).describe result }

/-- Subtracts the operand and the carry, which is a borrow here. The carry leaves set if the
difference of all sixty-four bits came out above the target, overflow if the inputs differ in sign
and the result has not the target's. -/
def subtract (x : Operands) : Operands :=
  let difference := x.target - x.operand - x.carryIn
  let result := Cell.extend x.status.width difference
  let borrow := x.target.ult difference
  let overflow :=
    x.target.isNegative != x.operand.isNegative && x.target.isNegative != result.isNegative
  { x with
    target := result
    status := ((x.status.write .carry borrow).write .overflow overflow).describe result }

/-! ## Logic -/

/-- Puts a value into the target and lets zero and negative describe it. -/
def settle (x : Operands) (result : Cell) : Operands :=
  { x with target := result, status := x.status.describe result }

/-- Puts a value, sign extended from the operand width, into the target. -/
def settleExtended (x : Operands) (value : Cell) : Operands :=
  x.settle (Cell.extend x.status.width value)

/-- Puts the bits that both cells have into the target. -/
def conjoin (x : Operands) : Operands :=
  x.settleExtended (x.target &&& x.operand)

/-- Puts the bits that either cell has into the target. -/
def disjoin (x : Operands) : Operands :=
  x.settleExtended (x.target ||| x.operand)

/-- Puts the bits in which the cells differ into the target. -/
def differ (x : Operands) : Operands :=
  x.settleExtended (x.target ^^^ x.operand)

/-! ## Comparison -/

/-- Compares without changing either cell. Carry says that the target is at least the operand as an
unsigned number, overflow that it is as a signed number, zero that the two are equal. The signed
order holds when only the operand is negative, and for two numbers of one sign it is the unsigned
order. -/
def compare (x : Operands) : Operands :=
  let unsigned := x.operand.ule x.target
  let signed :=
    (!x.target.isNegative && x.operand.isNegative) ||
      (x.target.isNegative == x.operand.isNegative && unsigned)
  { x with
    status := ((x.status.write .carry unsigned).write .overflow signed).write .zero
      (x.target == x.operand) }

/-! ## Shifts -/

/-- Shifts left by the operand, all bits out from sixty-four on. -/
def shiftLeft (x : Operands) : Operands :=
  x.settleExtended (if 64 ≤ x.operand.toNat then 0#64 else x.target <<< x.operand.toNat)

/-- Shifts right by the operand within the operand width, zeros coming in from above. -/
def shiftRight (x : Operands) : Operands :=
  let low := Cell.truncate x.status.width x.target
  x.settleExtended (if 64 ≤ x.operand.toNat then 0#64 else low >>> x.operand.toNat)

/-- Shifts all sixty-four bits right by the operand, copies of the top bit coming in from above,
whatever the operand width is. -/
def shiftRightArithmetic (x : Operands) : Operands :=
  x.settle <|
    if 64 ≤ x.operand.toNat then
      if x.target.isNegative then BitVec.allOnes 64 else 0#64
    else
      x.target.sshiftRight x.operand.toNat

/-! ## Products and quotients -/

/-- The signed product of the two cells, exact. -/
def product (x : Operands) : Int :=
  x.target.toInt * x.operand.toInt

/-- Multiplies signed cells narrower than the whole: the product stays in the target. -/
def multiplyNarrow (x : Operands) : Operands :=
  x.settle (BitVec.ofInt 64 x.product)

/-- Multiplies whole cells: the target takes the low half of the product and the operand the high
half, which for a product that fits one cell repeats its sign. Zero and negative describe the
product. -/
def multiplyWide (x : Operands) : Operands :=
  let narrow := BitVec.ofInt 64 x.product
  if narrow.toInt = x.product then
    { target := narrow
      operand := if x.product < 0 then BitVec.allOnes 64 else 0#64
      status := (x.status.write .zero (x.product == 0)).write .negative (decide (x.product < 0)) }
  else
    -- Two halves of which neither alone tells the sign or whether the product is zero.
    let wide := BitVec.ofInt 128 x.product
    let low : Cell := wide.extractLsb' 0 64
    let high : Cell := wide.extractLsb' 64 64
    { target := low
      operand := high
      status := (x.status.write .zero (low.isZero && high.isZero)).write .negative
        high.isNegative }

/-- Multiplies signed cells. -/
def multiply (x : Operands) : Operands :=
  match x.status.width with
  | .w64 => x.multiplyWide
  | _ => x.multiplyNarrow

/-- Divides signed cells, rounding toward zero: the target takes the quotient, the operand the
remainder. Zero and negative describe the quotient and overflow says that the remainder is
negative. -/
def divideNonzero (x : Operands) : Operands :=
  let quotient : Cell := x.target.sdiv x.operand
  let remainder : Cell := x.target.srem x.operand
  { target := quotient
    operand := remainder
    status := (x.status.describe quotient).write .overflow remainder.isNegative }

/-- Divides signed cells; a zero divisor is refused and changes nothing. -/
def divide (x : Operands) : Outcome Operands ArithmeticFault Unit :=
  if x.operand.isZero then
    .refuse x .divisionByZero (.zeroDivisor x.target)
  else
    .done x.divideNonzero ()

/-! ## Running an operation by name -/

/-- Runs one operation. -/
def apply (op : AluOp) (x : Operands) : Outcome Operands ArithmeticFault Unit :=
  match op with
  | .add => .done x.add ()
  | .subtract => .done x.subtract ()
  | .and => .done x.conjoin ()
  | .or => .done x.disjoin ()
  | .xor => .done x.differ ()
  | .compare => .done x.compare ()
  | .shiftLeft => .done x.shiftLeft ()
  | .shiftRight => .done x.shiftRight ()
  | .shiftRightArithmetic => .done x.shiftRightArithmetic ()
  | .multiply => .done x.multiply ()
  | .divide => x.divide

end Operands

end Datapath
