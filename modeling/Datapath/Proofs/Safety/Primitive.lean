import Datapath.Cell
import Mathlib.Algebra.Group.Int.Defs
import Mathlib.Algebra.Group.Nat.Defs

/-!
# Primitives with a domain

Shifts, indexes, slices, quotients and signed numbers of a fixed size are partial: used outside its
domain, each of them stops the whole program. Here such a use is a `Trap`. A `Checked` computation
goes on from primitive to primitive up to the first trap, and gives a value only if there is none.

The core is written over total operations, which have some value everywhere. Inside its domain each
primitive has the value of the total one (`within_of`), so a computation that is written out over the
primitives and never leaves a domain is an equation: it is `.ok` of what the core computes. That is
how all of the core is shown to be safe, one definition after another, and the equations of the parts
are what the equation of the whole is put together from.
-/

set_option autoImplicit false

namespace Datapath

/-- How a program is stopped. -/
inductive Trap
  /-- A shift by as many bits as there are, or more. -/
  | shift
  /-- An index at which there is nothing. -/
  | index
  /-- A slice that ends before it begins or outside. -/
  | slice
  /-- A number that its type does not hold. -/
  | overflow
  /-- A negative number where an index is needed. -/
  | negative
  /-- A division by zero. -/
  | zeroDivisor
  /-- A loop that goes on when it should have ended. -/
  | endless
  deriving DecidableEq, Repr

/-- A computation that a primitive may stop. -/
abbrev Checked (α : Type) := Except Trap α

namespace Checked

variable {α β : Type} {n : Nat}

@[simp] theorem ok_bind (a : α) (f : α → Checked β) : (Except.ok a >>= f) = f a := rfl

/-- A value that is there only inside a domain. -/
def within (domain : Prop) [Decidable domain] (trap : Trap) (a : α) : Checked α :=
  if domain then .ok a else .error trap

theorem within_of {domain : Prop} [Decidable domain] {trap : Trap} {a : α} (h : domain) :
    within domain trap a = .ok a :=
  if_pos h

/-! ## Bits -/

def shiftLeft (v : BitVec n) (count : Nat) : Checked (BitVec n) :=
  within (count < n) .shift (v <<< count)

def shiftRight (v : BitVec n) (count : Nat) : Checked (BitVec n) :=
  within (count < n) .shift (v >>> count)

/-- Copies of the top bit come in from above. -/
def shiftRightSigned (v : BitVec n) (count : Nat) : Checked (BitVec n) :=
  within (count < n) .shift (v.sshiftRight count)

example : shiftLeft 1#64 63 = .ok 0x8000000000000000#64 := rfl

example : shiftLeft 1#64 64 = .error .shift := rfl

/-! ## Numbers -/

/-- A signed number of so many bits. -/
def signed (bits : Nat) (v : Int) : Checked Int :=
  within (-2 ^ (bits - 1) ≤ v ∧ v < 2 ^ (bits - 1)) .overflow v

/-- A number as an index. -/
def toIndex (v : Int) : Checked Nat :=
  within (0 ≤ v) .negative v.toNat

/-- A signed difference or sum of positions, taken as an index. -/
def span (v : Int) : Checked Nat := do
  toIndex (← signed 32 v)

theorem span_of {v : Int} (hle : 0 ≤ v) (hlt : v < 2 ^ 31) : span v = .ok v.toNat := by
  rw [span, signed, within_of ⟨by omega, hlt⟩, ok_bind, toIndex, within_of hle]

/-- A sum of two indexes; thirty-two bits are the least that an index has. -/
def sum (i j : Nat) : Checked Nat :=
  within (i + j < 2 ^ 32) .overflow (i + j)

def quotient (a b : Cell) : Checked Cell :=
  within (b ≠ 0#64) .zeroDivisor (a.sdiv b)

def remainder (a b : Cell) : Checked Cell :=
  within (b ≠ 0#64) .zeroDivisor (a.srem b)

/-! ## Places -/

/-- The place of an index among so many. -/
def place (length i : Nat) : Checked Unit :=
  within (i < length) .index ()

def element (xs : List α) (i : Nat) : Checked α :=
  match xs[i]? with
  | some x => .ok x
  | none => .error .index

theorem element_of {xs : List α} {i : Nat} {x : α} (h : xs[i]? = some x) :
    element xs i = .ok x := by
  rw [element, h]

def store (xs : Array α) (i : Nat) (x : α) : Checked (Array α) :=
  within (i < xs.size) .index (xs.setIfInBounds i x)

def slice (xs : Array α) (start stop : Nat) : Checked (List α) :=
  within (start ≤ stop ∧ stop ≤ xs.size) .slice (xs.extract start stop).toList

end Checked

end Datapath
