import Datapath.Code

/-!
# ALU operations

The eleven operations that the arithmetic unit knows, by name. Each works on a target cell and an
operand cell; only the two whose answer has two parts, a product and its high half or a quotient
and its remainder, may write the operand.
-/

set_option autoImplicit false

namespace Datapath

/-- An operation of the arithmetic unit. -/
inductive AluOp
  | add | subtract
  | and | or | xor
  | compare
  | shiftLeft | shiftRight | shiftRightArithmetic
  | multiply | divide
  deriving DecidableEq, Repr, Inhabited

instance : Named AluOp where
  all :=
    [.add, .subtract, .and, .or, .xor, .compare, .shiftLeft, .shiftRight, .shiftRightArithmetic,
      .multiply, .divide]
  name
    | .add => "Add"
    | .subtract => "Subtract"
    | .and => "And"
    | .or => "Or"
    | .xor => "Xor"
    | .compare => "Compare"
    | .shiftLeft => "ShiftLeft"
    | .shiftRight => "ShiftRight"
    | .shiftRightArithmetic => "ShiftRightArithmetic"
    | .multiply => "MultiplySigned"
    | .divide => "DivideSigned"
  mem_all a := by cases a <;> decide
  name_injective a b := by cases a <;> cases b <;> decide

/-- The operation may leave the second part of its answer in the operand. -/
def AluOp.writesOperand : AluOp → Bool
  | .multiply | .divide => true
  | _ => false

end Datapath
