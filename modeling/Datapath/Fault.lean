import Datapath.Numeral
import Datapath.Selector

/-!
# Faults

What can go wrong in the register core, as causes: a raw byte that selects nothing, a division by
zero, and a stack that has no room, too few bytes or no buffer under its pointer. Each cause has a
kind, a message for people and a trace form for logs. A fault of the core as a whole says which part
raised it; all but a refused selector leave a program that can be trapped and resumed, because a
byte that selects nothing means that the executor itself decoded garbage.
-/

set_option autoImplicit false

namespace Datapath

/-! ## Causes -/

/-- What the arithmetic unit refuses. -/
inductive ArithmeticFault
  | divisionByZero
  deriving DecidableEq, Repr

/-- What a stack refuses. -/
inductive StackFault
  /-- A push needs more bytes than are free. -/
  | overflow (needed available : Nat)
  /-- A pop needs more bytes than are in use. -/
  | underflow (needed available : Nat)
  /-- The starting pointer names no slot of the buffer. -/
  | pointerOutOfRange (pointer : BitVec 16) (length : Nat)
  deriving DecidableEq, Repr

/-- A fault of the register core, by the part that raised it. -/
inductive Fault
  | status (fault : SelectorFault)
  | arithmetic (fault : ArithmeticFault)
  | stack (fault : StackFault)
  deriving DecidableEq, Repr

/-! ## Texts of one cause -/

/-- A record in trace form: its name, and its fields in braces. -/
def traceRecord (name : String) (fields : List (String × String)) : String :=
  name ++ " \x7b " ++ ", ".intercalate (fields.map fun (key, value) => key ++ ": " ++ value) ++ " \x7d"

namespace SelectorFault

/-- The bound that the byte broke. -/
def message (f : SelectorFault) : String :=
  f.label ++ " must be <= " ++ Numeral.decimal f.greatest ++ ", got " ++ Numeral.decimal f.value.toNat

/-- The trace form. -/
def trace (f : SelectorFault) : String :=
  traceRecord "InvalidField"
    [("field", "\"" ++ f.label ++ "\""), ("value", Numeral.decimal f.value.toNat),
      ("max", Numeral.decimal f.greatest)]

end SelectorFault

namespace ArithmeticFault

/-- The cause in words. -/
def message : ArithmeticFault → String
  | divisionByZero => "division by zero"

/-- The trace form. -/
def trace : ArithmeticFault → String
  | divisionByZero => "DivisionByZero"

end ArithmeticFault

namespace StackFault

/-- What was needed and what there was. -/
def message : StackFault → String
  | overflow needed available =>
    "stack overflow: need " ++ Numeral.decimal needed ++ " bytes, " ++
      Numeral.decimal available ++ " free"
  | underflow needed available =>
    "stack underflow: need " ++ Numeral.decimal needed ++ " bytes, " ++
      Numeral.decimal available ++ " in use"
  | pointerOutOfRange pointer length =>
    "stack pointer " ++ Numeral.marked 4 pointer.toNat ++ " outside a " ++
      Numeral.decimal length ++ "-byte buffer"

/-- The trace form. -/
def trace : StackFault → String
  | overflow needed available =>
    traceRecord "Overflow"
      [("needed", Numeral.decimal needed), ("available", Numeral.decimal available)]
  | underflow needed available =>
    traceRecord "Underflow"
      [("needed", Numeral.decimal needed), ("available", Numeral.decimal available)]
  | pointerOutOfRange pointer length =>
    traceRecord "PointerOutOfRange"
      [("ptr", Numeral.decimal pointer.toNat), ("len", Numeral.decimal length)]

end StackFault

/-! ## Texts of a fault of the core -/

namespace Fault

/-- The word for the kind of cause. -/
def kind : Fault → String
  | status _ => "InvalidField"
  | arithmetic .divisionByZero => "DivisionByZero"
  | stack (.overflow _ _) => "Overflow"
  | stack (.underflow _ _) => "Underflow"
  | stack (.pointerOutOfRange _ _) => "PointerOutOfRange"

/-- The message of the cause alone. -/
def causeMessage : Fault → String
  | status f => f.message
  | arithmetic f => f.message
  | stack f => f.message

/-- The trace form of the cause alone. -/
def causeTrace : Fault → String
  | status f => f.trace
  | arithmetic f => f.trace
  | stack f => f.trace

/-- The message of the fault, led by the part that raised it. -/
def message : Fault → String
  | status f => "status error: " ++ f.message
  | arithmetic f => "ALU error: " ++ f.message
  | stack f => "stack error: " ++ f.message

/-- The trace form of the fault, wrapped in the part that raised it. -/
def trace : Fault → String
  | status f => "Status(" ++ f.trace ++ ")"
  | arithmetic f => "Alu(" ++ f.trace ++ ")"
  | stack f => "Stack(" ++ f.trace ++ ")"

/-- The emulated program can be trapped and resumed. -/
def isRecoverable : Fault → Bool
  | status _ => false
  | arithmetic _ | stack _ => true

end Fault

end Datapath
