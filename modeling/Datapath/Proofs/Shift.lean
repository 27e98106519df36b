import Datapath.Proofs.SignExtension
import Datapath.Proofs.SignedSum

/-!
# Shifts

The unit asks of a count whether it is sixty-four or more, whatever the operand width is. The test
changes no outcome, because a shift that far has moved every bit out without it, so every count may
be taken as it is (`apply_shift`): the logical shifts are those of the low bits at the operand width,
sign extended again, and the arithmetic one is that of the whole cell (`Shift.value`).

In this form a shift by two counts in turn is the shift by their sum. In between, the sign extension
of a narrow result puts ones above the width, but the next logical shift does not look there. And as
numbers the three are a product cut to the width, a quotient of the low bits, and a quotient of the
signed number, rounded down.
-/

set_option autoImplicit false

namespace Datapath

namespace Cell

variable {w : Width} {c : Cell}

/-! ## Low bits of a shifted cell -/

theorem unsigned_shiftLeft (w : Width) (c : Cell) (n : Nat) :
    unsigned w (c <<< n) = unsigned w c <<< n :=
  BitVec.setWidth_shiftLeft_of_le (bits_le w)

theorem toNat_truncate (w : Width) (c : Cell) : (truncate w c).toNat = (unsigned w c).toNat := by
  rw [truncate_eq, BitVec.toNat_setWidth_of_le (bits_le w)]

theorem unsigned_truncate_shiftRight (w : Width) (c : Cell) (n : Nat) :
    unsigned w (truncate w c >>> n) = unsigned w c >>> n := by
  -- Shifting down keeps within the width what was cut to it, so nothing is cut a second time.
  have hshifted : (unsigned w c).toNat >>> n < 2 ^ w.bits :=
    Nat.lt_of_le_of_lt (Nat.shiftRight_le _ n) (unsigned w c).isLt
  apply BitVec.eq_of_toNat_eq
  rw [unsigned, BitVec.toNat_setWidth, BitVec.toNat_ushiftRight, toNat_truncate,
    Nat.mod_eq_of_lt hshifted, BitVec.toNat_ushiftRight]

theorem unsigned_signExtend (w : Width) (v : BitVec w.bits) :
    unsigned w (v.signExtend 64) = v := by
  have hback := unsigned_extend w (v.setWidth 64)
  rwa [extend_eq, unsigned_setWidth] at hback

theorem IsExtended.unsigned_sshiftRight (h : IsExtended w c) (n : Nat) :
    unsigned w (c.sshiftRight n) = (unsigned w c).sshiftRight n := by
  have hafter := (h.sshiftRight n).signed_eq
  have hbefore := h.signed_eq
  rw [signed] at hafter hbefore
  -- Both shifts divide one number, which has two patterns here.
  rw [← BitVec.toInt_inj, hafter, BitVec.toInt_sshiftRight, BitVec.toInt_sshiftRight, hbefore]

/-! ## Counts of sixty-four and more -/

theorem guarded_shiftLeft (c : Cell) (n : Nat) : (if 64 ≤ n then 0#64 else c <<< n) = c <<< n := by
  by_cases hall : 64 ≤ n
  · rw [if_pos hall, BitVec.shiftLeft_eq_zero hall]
  · rw [if_neg hall]

theorem guarded_shiftRight (c : Cell) (n : Nat) :
    (if 64 ≤ n then 0#64 else c >>> n) = c >>> n := by
  by_cases hall : 64 ≤ n
  · rw [if_pos hall, BitVec.ushiftRight_eq_zero hall]
  · rw [if_neg hall]

end Cell

open Cell (IsExtended)
open StatusWord (SameOn)

/-! ## The three shifts -/

inductive Shift
  | left | right | arithmetic
  deriving DecidableEq, Repr

namespace Shift

def op : Shift → AluOp
  | .left => .shiftLeft
  | .right => .shiftRight
  | .arithmetic => .shiftRightArithmetic

/-- What a cell becomes when it is shifted by a count at an operand width. -/
def value : Shift → Width → Cell → Nat → Cell
  | .left, w, c, n => (Cell.unsigned w c <<< n).signExtend 64
  | .right, w, c, n => (Cell.unsigned w c >>> n).signExtend 64
  | .arithmetic, _, c, n => c.sshiftRight n

/-- The shift by a sum is the two shifts in turn. -/
theorem value_add (s : Shift) (w : Width) (c : Cell) (m n : Nat) :
    s.value w c (m + n) = s.value w (s.value w c m) n := by
  cases s with
  | left =>
    rw [value, value, value, Cell.unsigned_signExtend, BitVec.shiftLeft_add]
  | right =>
    rw [value, value, value, Cell.unsigned_signExtend, BitVec.shiftRight_add]
  | arithmetic =>
    rw [value, value, value, BitVec.sshiftRight_add]

theorem value_left (w : Width) (c : Cell) (n : Nat) :
    Shift.left.value w c n = (BitVec.ofNat w.bits (c.toNat * 2 ^ n)).signExtend 64 := by
  have hbits : Cell.unsigned w c <<< n = BitVec.ofNat w.bits (c.toNat * 2 ^ n) := by
    apply BitVec.eq_of_toNat_eq
    rw [BitVec.toNat_shiftLeft, Cell.unsigned, BitVec.toNat_setWidth, Nat.shiftLeft_eq,
      Nat.mod_mul_mod, BitVec.toNat_ofNat]
  rw [value, hbits]

theorem value_right (w : Width) (c : Cell) (n : Nat) :
    Shift.right.value w c n =
      (BitVec.ofNat w.bits (c.toNat % 2 ^ w.bits / 2 ^ n)).signExtend 64 := by
  have hbits : Cell.unsigned w c >>> n =
      BitVec.ofNat w.bits (c.toNat % 2 ^ w.bits / 2 ^ n) := by
    have hshifted := (Cell.unsigned w c >>> n).isLt
    apply BitVec.eq_of_toNat_eq
    rw [BitVec.toNat_ushiftRight, Nat.shiftRight_eq_div_pow, Cell.unsigned, BitVec.toNat_setWidth]
      at hshifted ⊢
    rw [BitVec.toNat_ofNat, Nat.mod_eq_of_lt hshifted]
  rw [value, hbits]

theorem toInt_value_arithmetic (w : Width) (c : Cell) (n : Nat) :
    (Shift.arithmetic.value w c n).toInt = c.toInt / 2 ^ n := by
  rw [value, BitVec.toInt_sshiftRight, Int.shiftRight_eq_div_pow, Int.natCast_pow]
  rfl

def run (s : Shift) (x : Operands) : Operands :=
  (x.apply s.op).state

end Shift

namespace Operands

/-- **A shift by any count.** -/
theorem apply_shift (s : Shift) (x : Operands) :
    x.apply s.op =
      .done (x.settle (s.value x.status.width x.target x.operand.toNat)) () := by
  cases s with
  | left =>
    rw [Shift.op, apply, shiftLeft, Cell.guarded_shiftLeft, settleExtended, Cell.extend_eq,
      Cell.unsigned_shiftLeft, Shift.value]
  | right =>
    rw [Shift.op, apply, shiftRight, Cell.guarded_shiftRight, settleExtended, Cell.extend_eq,
      Cell.unsigned_truncate_shiftRight, Shift.value]
  | arithmetic =>
    rw [Shift.op, apply, shiftRightArithmetic, Cell.guarded_sshiftRight, Shift.value]

theorem run_shift (s : Shift) (x : Operands) :
    s.run x = x.settle (s.value x.status.width x.target x.operand.toNat) := by
  rw [Shift.run, apply_shift]
  rfl

theorem target_run (s : Shift) (x : Operands) :
    (s.run x).target = s.value x.status.width x.target x.operand.toNat := by
  rw [run_shift]
  rfl

/-- What a shift leaves besides the target: zero and negative tell of it. -/
structure Settled (x after : Operands) : Prop where
  operand : after.operand = x.operand
  described : after.status.Describes after.target.toInt
  kept : ∀ f : Field, f ∉ [.negative, .zero] → after.status.read f = x.status.read f

theorem settled_run (s : Shift) (x : Operands) : x.Settled (s.run x) := by
  refine ⟨?_, ?_, ?_⟩
  · rw [run_shift]
    rfl
  · rw [run_shift]
    exact StatusWord.describes_describe x.status _
  · intro f hf
    have hwrites : s.op.writes = [.negative, .zero] := by cases s <;> rfl
    exact read_apply_of_not_mem x s.op f (hwrites ▸ hf)

/-- The widths of the three words have to agree, and nothing else that they hold. -/
theorem run_shift_add (s : Shift) {st st' st'' : StatusWord} {m n : Cell} (a : Cell)
    (hsecond : st'.width = st.width) (honce : st''.width = st.width)
    (hcount : m.toNat + n.toNat < 2 ^ 64) :
    let first := s.run ⟨a, m, st⟩
    let second := s.run ⟨first.target, n, st'⟩
    let once := s.run ⟨a, m + n, st''⟩
    second.target = once.target ∧ SameOn [.negative, .zero] second.status once.status := by
  intro first second once
  have hsum : (m + n).toNat = m.toNat + n.toNat := BitVec.toNat_add_of_lt hcount
  -- The second run takes in the target alone, and a width that is the first one's.
  have hvalue : s.value st'.width first.target n.toNat = s.value st''.width a (m + n).toNat := by
    have hfirst : first.target = s.value st.width a m.toNat := target_run s _
    rw [hfirst, hsecond, honce, hsum, s.value_add]
  have hnone : SameOn [] st' st'' := fun f hf => absurd hf List.not_mem_nil
  have htwice : second = Operands.settle ⟨first.target, n, st'⟩ _ := run_shift s _
  have hdirect : once = Operands.settle ⟨a, m + n, st''⟩ _ := run_shift s _
  rw [htwice, hdirect]
  exact ⟨hvalue, hvalue ▸ hnone.describe _⟩

/-- **Exact shifts.** Whatever count the operand holds, a left shift multiplies by its power of two
and both right shifts divide by it, rounding down, and of the status word only zero and negative
change, to tell of the result. A shift by one count and then by another is the shift by their sum,
as long as a cell can hold that. And a number that the width can hold the arithmetic shift takes for
a number of the width. -/
theorem shift_exact :
    (∀ x : Operands,
      let w := x.status.width
      let a := x.target
      let n := x.operand.toNat
      x.shiftLeft.target = (BitVec.ofNat w.bits (a.toNat * 2 ^ n)).signExtend 64 ∧
        x.shiftRight.target = (BitVec.ofNat w.bits (a.toNat % 2 ^ w.bits / 2 ^ n)).signExtend 64 ∧
        x.shiftRightArithmetic.target.toInt = a.toInt / 2 ^ n) ∧
    (∀ (s : Shift) (x : Operands), (x.apply s.op).result = .ok () ∧ x.Settled (s.run x)) ∧
    (∀ (s : Shift) (a m n : Cell) (st st' st'' : StatusWord), st'.width = st.width →
      st''.width = st.width → m.toNat + n.toNat < 2 ^ 64 →
      let first := s.run ⟨a, m, st⟩
      let second := s.run ⟨first.target, n, st'⟩
      let once := s.run ⟨a, m + n, st''⟩
      second.target = once.target ∧ SameOn [.negative, .zero] second.status once.status) ∧
    ∀ (w : Width) (x : Operands), IsExtended w x.target →
      let after := x.shiftRightArithmetic.target
      IsExtended w after ∧
        Cell.unsigned w after = (Cell.unsigned w x.target).sshiftRight x.operand.toNat := by
  refine ⟨?_, ?_, ?_, ?_⟩
  · intro x w a n
    have hleft : x.shiftLeft.target = Shift.left.value w a n := target_run .left x
    have hright : x.shiftRight.target = Shift.right.value w a n := target_run .right x
    have harithmetic : x.shiftRightArithmetic.target = Shift.arithmetic.value w a n :=
      target_run .arithmetic x
    rw [hleft, hright, harithmetic]
    exact ⟨Shift.value_left w a n, Shift.value_right w a n, Shift.toInt_value_arithmetic w a n⟩
  · intro s x
    refine ⟨?_, settled_run s x⟩
    rw [apply_shift]
    rfl
  · intro s a m n st st' st'' hsecond honce hcount
    exact run_shift_add s a hsecond honce hcount
  · intro w x hextended after
    have hafter : after = x.target.sshiftRight x.operand.toNat := target_run .arithmetic x
    rw [hafter]
    exact ⟨hextended.sshiftRight _, hextended.unsigned_sshiftRight _⟩

/-- The byte 133, which is the number -123. A shift by zero and then by two gives 33, ones above the
byte in between or not; the arithmetic shift by two gives -31. -/
theorem shift_exact_byte :
    let st := StatusWord.clear
    let a : Cell := 0xFFFFFFFFFFFFFF85#64
    let first := Shift.right.run ⟨a, 0#64, st⟩
    let second := Shift.right.run ⟨first.target, 2#64, first.status⟩
    let arithmetic := (Operands.mk a 2#64 st).shiftRightArithmetic.target
    (st.width = .w8 ∧ first.status.width = .w8 ∧ IsExtended .w8 a) ∧
      (first.target = a ∧ second.target = 33#64) ∧
      (IsExtended .w8 arithmetic ∧ Cell.signed .w8 arithmetic = -31) := by
  intro st a first second arithmetic
  obtain ⟨hexact, -, hadd, hkept⟩ := shift_exact
  have hwidth : st.width = .w8 ∧ first.status.width = .w8 ∧ IsExtended .w8 a := by decide
  have hfirst : first.target = a := (hexact ⟨a, 0#64, st⟩).2.1.trans (by decide)
  have htwice := (hadd .right a 0#64 2#64 st first.status st
    (hwidth.2.1.trans hwidth.1.symm) rfl (by decide)).1
  have honce : (Shift.right.run ⟨a, 2#64, st⟩).target = 33#64 :=
    (hexact ⟨a, 2#64, st⟩).2.1.trans (by decide)
  obtain ⟨hextended, hlow⟩ := hkept .w8 ⟨a, 2#64, st⟩ hwidth.2.2
  have hsigned : Cell.signed .w8 arithmetic = -31 :=
    (congrArg BitVec.toInt hlow).trans (by decide)
  exact ⟨hwidth, ⟨hfirst, htwice.trans honce⟩, hextended, hsigned⟩

end Operands

end Datapath
