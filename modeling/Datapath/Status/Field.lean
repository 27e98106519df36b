import Datapath.Selector

/-!
# The fields of the status word

Thirty-two bits, most significant first:

    C V Z N A A A I | R R P T O O M M | S S S S S S S S | U U U U U U U U

The four condition flags C V Z N, the address mode A, the interrupt disable bit I, the selected
register R, the active pointer bank P and counter bank T, the operand width O, the math mode M, and
two bytes that the machine carries without reading them, one for the system and one for the user.

A field is known by the position of its lowest bit and by the type of what it holds, whose code
fixes its size. The positions leave no gap and no overlap: `disjoint_of_ne` says that two fields
share no bit, `exists_covering` that every bit belongs to one.
-/

set_option autoImplicit false

namespace Datapath

/-- The thirteen fields of the status word, from the highest bits to the lowest. -/
inductive Field
  | carry | overflow | zero | negative
  | addressMode | interruptDisable
  | register | pointerBank | counterBank
  | width | mathMode
  | system | user
  deriving DecidableEq, Repr

namespace Field

/-- Every field, from the highest bits to the lowest. -/
def all : List Field :=
  [.carry, .overflow, .zero, .negative, .addressMode, .interruptDisable, .register, .pointerBank,
    .counterBank, .width, .mathMode, .system, .user]

/-- No field is left out of the list. -/
theorem mem_all (f : Field) : f ∈ all := by
  cases f <;> decide

/-- What a field holds. -/
@[reducible] def Value : Field → Type
  | carry | overflow | zero | negative | interruptDisable => Bool
  | addressMode => AddressMode
  | register => Register
  | pointerBank | counterBank => Bank
  | width => Width
  | mathMode => MathMode
  | system | user => Byte

instance (f : Field) : DecidableEq f.Value := by
  cases f <;> (dsimp only [Value]; infer_instance)

/-- What a field holds has a code, whose size is the size of the field. -/
instance coded : (f : Field) → Coded f.Value
  | carry | overflow | zero | negative | interruptDisable => inferInstanceAs (Coded Bool)
  | addressMode => inferInstanceAs (Coded AddressMode)
  | register => inferInstanceAs (Coded Register)
  | pointerBank | counterBank => inferInstanceAs (Coded Bank)
  | width => inferInstanceAs (Coded Width)
  | mathMode => inferInstanceAs (Coded MathMode)
  | system | user => inferInstanceAs (Coded (BitVec 8))

/-- Position of the lowest bit of a field. -/
def offset : Field → Nat
  | carry => 31
  | overflow => 30
  | zero => 29
  | negative => 28
  | addressMode => 25
  | interruptDisable => 24
  | register => 22
  | pointerBank => 21
  | counterBank => 20
  | width => 18
  | mathMode => 16
  | system => 8
  | user => 0

/-- Number of bits of a field. -/
def size (f : Field) : Nat :=
  Coded.size f.Value

/-- A bit of the word lies in a field. -/
def Covers (f : Field) (i : Nat) : Prop :=
  f.offset ≤ i ∧ i < f.offset + f.size

instance (f : Field) (i : Nat) : Decidable (f.Covers i) :=
  inferInstanceAs (Decidable (_ ∧ _))

/-- Two fields share no bit: one of them ends where the other has not begun. -/
theorem disjoint_of_ne {f g : Field} (h : f ≠ g) :
    f.offset + f.size ≤ g.offset ∨ g.offset + g.size ≤ f.offset := by
  cases f <;> cases g <;> first | exact absurd rfl h | decide

/-- Every field lies within the thirty-two bits. -/
theorem offset_add_size_le (f : Field) : f.offset + f.size ≤ 32 := by
  cases f <;> decide

/-- Every bit of the word belongs to a field. -/
theorem exists_covering : ∀ i, i < 32 → ∃ f : Field, f ∈ all ∧ f.Covers i := by
  decide

end Field

/-! ## Choices -/

/-- The fields that an executor fills from a raw byte it has decoded. -/
inductive Choice
  | addressMode | register | width | mathMode
  deriving DecidableEq, Repr

/-- The field that a choice fills. -/
@[reducible] def Choice.field : Choice → Field
  | addressMode => .addressMode
  | register => .register
  | width => .width
  | mathMode => .mathMode

/-- What a choice fills can be asked for by a raw byte. -/
instance Choice.selector : (c : Choice) → Selector c.field.Value
  | addressMode => inferInstanceAs (Selector AddressMode)
  | register => inferInstanceAs (Selector Register)
  | width => inferInstanceAs (Selector Width)
  | mathMode => inferInstanceAs (Selector MathMode)

end Datapath
