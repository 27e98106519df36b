import Datapath.Code

/-!
# Selectors

The choices that the status word makes for the instructions that follow: how a memory operand is
located, which general register is selected, which of two register banks is active, how wide the
operands are and how numbers are understood. Each is a small closed type with a name for every
value and a code of one to three bits, and each can be asked for by a raw byte, which is refused when
no value has that code. The condition flags, which operations set and nobody chooses, have names
only.
-/

set_option autoImplicit false

namespace Datapath

/-! ## The selector types -/

/-- How an instruction's memory operand is located. -/
inductive AddressMode
  | ptr | ptrOfs | ptrIx | ptrIxOfs | ptrPtr | ptrPtrOfs | ptrPtrIx | ptrPtrIxOfs
  deriving DecidableEq, Repr, Inhabited

/-- One of the four general registers. -/
inductive Register
  | r0 | r1 | r2 | r3
  deriving DecidableEq, Repr, Inhabited

/-- How many low bits of a cell an operation works on. -/
inductive Width
  | w8 | w16 | w32 | w64
  deriving DecidableEq, Repr, Inhabited

/-- How arithmetic understands the bits of a cell; the ALU itself knows integers only. -/
inductive MathMode
  | integer | fractional | fixed | float
  deriving DecidableEq, Repr, Inhabited

/-- Which of the two banks of pointer or counter registers is active. -/
inductive Bank
  | set0 | set1
  deriving DecidableEq, Repr, Inhabited

/-- The single-bit outcomes of an operation. -/
inductive Flag
  | carry | overflow | zero | negative
  deriving DecidableEq, Repr, Inhabited

/-! ## Names -/

instance : Named AddressMode where
  all := [.ptr, .ptrOfs, .ptrIx, .ptrIxOfs, .ptrPtr, .ptrPtrOfs, .ptrPtrIx, .ptrPtrIxOfs]
  name
    | .ptr => "Ptr"
    | .ptrOfs => "PtrOfs"
    | .ptrIx => "PtrIx"
    | .ptrIxOfs => "PtrIxOfs"
    | .ptrPtr => "PtrPtr"
    | .ptrPtrOfs => "PtrPtrOfs"
    | .ptrPtrIx => "PtrPtrIx"
    | .ptrPtrIxOfs => "PtrPtrIxOfs"
  mem_all a := by cases a <;> decide
  name_injective a b := by cases a <;> cases b <;> decide

instance : Named Register where
  all := [.r0, .r1, .r2, .r3]
  name
    | .r0 => "R0"
    | .r1 => "R1"
    | .r2 => "R2"
    | .r3 => "R3"
  mem_all a := by cases a <;> decide
  name_injective a b := by cases a <;> cases b <;> decide

instance : Named Width where
  all := [.w8, .w16, .w32, .w64]
  name
    | .w8 => "Operand8"
    | .w16 => "Operand16"
    | .w32 => "Operand32"
    | .w64 => "Operand64"
  mem_all a := by cases a <;> decide
  name_injective a b := by cases a <;> cases b <;> decide

instance : Named MathMode where
  all := [.integer, .fractional, .fixed, .float]
  name
    | .integer => "Integer"
    | .fractional => "Fractional"
    | .fixed => "Fixed"
    | .float => "Float"
  mem_all a := by cases a <;> decide
  name_injective a b := by cases a <;> cases b <;> decide

instance : Named Bank where
  all := [.set0, .set1]
  name
    | .set0 => "Set0"
    | .set1 => "Set1"
  mem_all a := by cases a <;> decide
  name_injective a b := by cases a <;> cases b <;> decide

instance : Named Flag where
  all := [.carry, .overflow, .zero, .negative]
  name
    | .carry => "Carry"
    | .overflow => "Overflow"
    | .zero => "Zero"
    | .negative => "Negative"
  mem_all a := by cases a <;> decide
  name_injective a b := by cases a <;> cases b <;> decide

/-! ## Codes -/

instance : Coded AddressMode where
  size := 3
  code
    | .ptr => 0#3
    | .ptrOfs => 1#3
    | .ptrIx => 2#3
    | .ptrIxOfs => 3#3
    | .ptrPtr => 4#3
    | .ptrPtrOfs => 5#3
    | .ptrPtrIx => 6#3
    | .ptrPtrIxOfs => 7#3
  decode c :=
    match c.toNat with
    | 0 => .ptr
    | 1 => .ptrOfs
    | 2 => .ptrIx
    | 3 => .ptrIxOfs
    | 4 => .ptrPtr
    | 5 => .ptrPtrOfs
    | 6 => .ptrPtrIx
    | _ => .ptrPtrIxOfs
  decode_code a := by cases a <;> rfl
  code_decode := by decide

instance : Coded Register where
  size := 2
  code
    | .r0 => 0#2
    | .r1 => 1#2
    | .r2 => 2#2
    | .r3 => 3#2
  decode c :=
    match c.toNat with
    | 0 => .r0
    | 1 => .r1
    | 2 => .r2
    | _ => .r3
  decode_code a := by cases a <;> rfl
  code_decode := by decide

instance : Coded Width where
  size := 2
  code
    | .w8 => 0#2
    | .w16 => 1#2
    | .w32 => 2#2
    | .w64 => 3#2
  decode c :=
    match c.toNat with
    | 0 => .w8
    | 1 => .w16
    | 2 => .w32
    | _ => .w64
  decode_code a := by cases a <;> rfl
  code_decode := by decide

instance : Coded MathMode where
  size := 2
  code
    | .integer => 0#2
    | .fractional => 1#2
    | .fixed => 2#2
    | .float => 3#2
  decode c :=
    match c.toNat with
    | 0 => .integer
    | 1 => .fractional
    | 2 => .fixed
    | _ => .float
  decode_code a := by cases a <;> rfl
  code_decode := by decide

instance : Coded Bank where
  size := 1
  code
    | .set0 => 0#1
    | .set1 => 1#1
  decode c :=
    match c.toNat with
    | 0 => .set0
    | _ => .set1
  decode_code a := by cases a <;> rfl
  code_decode := by decide

/-! ## Widths -/

namespace Width

/-- The width in bits. -/
def bits : Width → Nat
  | w8 => 8
  | w16 => 16
  | w32 => 32
  | w64 => 64

/-- The width in bytes. -/
def bytes : Width → Nat
  | w8 => 1
  | w16 => 2
  | w32 => 4
  | w64 => 8

/-- Both measures of a width say the same. -/
theorem bits_eq (w : Width) : w.bits = 8 * w.bytes := by
  cases w <;> rfl

theorem bytes_pos (w : Width) : 0 < w.bytes := by
  cases w <;> decide

end Width

/-! ## Asking by a raw byte -/

/-- A selector type: its values have names and codes, and a label says what the choice is about. -/
class Selector (α : Type) extends Coded α, Named α where
  /-- What is being chosen, as error messages put it. -/
  label : String

instance : Selector AddressMode where
  label := "address mode"

instance : Selector Register where
  label := "register"

instance : Selector Width where
  label := "operand size"

instance : Selector MathMode where
  label := "math mode"

instance : Selector Bank where
  label := "register set"

/-- A raw byte that is no code of the selector it was meant for. -/
structure SelectorFault where
  /-- The label of the selector. -/
  label : String
  /-- The byte that was refused. -/
  value : Byte
  /-- The greatest code of the selector. -/
  greatest : Nat
  deriving DecidableEq, Repr

/-- The value whose code is a raw byte; a byte too large for the field is refused. -/
def Selector.ofByte {α : Type} [Selector α] (value : Byte) : Except SelectorFault α :=
  if value.toNat ≤ Coded.greatest α then
    .ok (Coded.decode (value.setWidth (Coded.size α)))
  else
    .error ⟨Selector.label α, value, Coded.greatest α⟩

end Datapath
