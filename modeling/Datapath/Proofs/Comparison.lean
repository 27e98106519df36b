import Datapath.Proofs.Dependence
import Datapath.Proofs.SignedSum

/-!
# Orders

A comparison looks at whole cells, whatever the operand width is, and a subtraction cuts its
difference to the width. Neither is written in terms of the other, but on sign extended cells they
tell the same orders. Extension moves the upper half of the patterns of a width to the upper end of
the cells and keeps the order of both halves, so whole cells are in the unsigned order of their low
bits (`toNat_le_iff`); and it keeps the signed number, so they are in the signed order too.

The flags of a comparison say "at least" where those of a subtraction say "borrowed" and "below
zero": carry and the sign of the difference come out negated, and zero is one flag in both.
-/

set_option autoImplicit false

namespace Datapath

namespace Cell

variable {w : Width} {c d : Cell}

/-- Sign extension keeps the unsigned order. -/
theorem IsExtended.toNat_le_iff (hc : IsExtended w c) (hd : IsExtended w d) :
    c.toNat ≤ d.toNat ↔ (unsigned w c).toNat ≤ (unsigned w d).toNat := by
  have hlow := hc.toNat_eq_or
  have hlow' := hd.toNat_eq_or
  have hbound := (unsigned w c).isLt
  have hbound' := (unsigned w d).isLt
  have hwhole := two_pow_bits_le w
  omega

end Cell

namespace Operands

open Cell (IsExtended)

variable {w : Width} {x : Operands}

/-! ## The flags of a comparison -/

theorem read_carry_compare (x : Operands) :
    x.compare.status.read .carry = x.operand.ule x.target := by
  simp only [compare]
  rw [StatusWord.read_write_of_ne _ _ (by decide), StatusWord.read_write_of_ne _ _ (by decide),
    StatusWord.read_write]

theorem read_zero_compare (x : Operands) :
    x.compare.status.read .zero = (x.target == x.operand) := by
  simp only [compare]
  rw [StatusWord.read_write]

theorem read_negative_compare (x : Operands) :
    x.compare.status.read .negative = x.status.read .negative :=
  read_apply_of_not_mem x .compare .negative (by decide)

/-- The two cases of the unit, one sign or two, are the signed order. -/
theorem read_overflow_compare (x : Operands) :
    x.compare.status.read .overflow = decide (x.operand.toInt ≤ x.target.toInt) := by
  have htarget := x.target.isLt
  have hoperand := x.operand.isLt
  simp only [compare]
  rw [StatusWord.read_write_of_ne _ _ (by decide), StatusWord.read_write, BitVec.ule,
    BitVec.toInt_eq_msb_cond, BitVec.toInt_eq_msb_cond, Cell.isNegative, Cell.isNegative]
  rw [Bool.eq_iff_iff, decide_eq_true_iff]
  -- A set top bit takes the same amount off both numbers, or puts one below zero.
  cases x.target.msb <;> cases x.operand.msb <;> simp <;> omega

/-- What a comparison of two numbers of a width leaves. -/
structure Compared (w : Width) (x after : Operands) : Prop where
  /-- Carry: at least, of the patterns of the width. -/
  carry : after.status.read .carry = true ↔
    (Cell.unsigned w x.operand).toNat ≤ (Cell.unsigned w x.target).toNat
  /-- Overflow: at least, of the signed numbers of the width. -/
  overflow : after.status.read .overflow = true ↔
    Cell.signed w x.operand ≤ Cell.signed w x.target
  zero : after.status.read .zero = true ↔ x.target = x.operand
  negative : after.status.read .negative = x.status.read .negative
  target : after.target = x.target
  operand : after.operand = x.operand

theorem compared_compare (ht : IsExtended w x.target) (ho : IsExtended w x.operand) :
    x.Compared w x.compare := by
  refine ⟨?_, ?_, ?_, read_negative_compare x, rfl, rfl⟩
  · rw [read_carry_compare, BitVec.ule, decide_eq_true_iff]
    exact ho.toNat_le_iff ht
  · rw [read_overflow_compare, decide_eq_true_iff, ho.signed_eq, ht.signed_eq]
  · rw [read_zero_compare, beq_iff_eq]

/-! ## The flags of a difference -/

/-- The orders that a comparison tells, told by the flags of a difference. -/
structure SameOrders (compared subtracted : StatusWord) : Prop where
  carry : subtracted.read .carry = !compared.read .carry
  zero : subtracted.read .zero = compared.read .zero
  sign : (subtracted.read .negative ^^ subtracted.read .overflow) = !compared.read .overflow

/-- Two numbers of a width are less than twice its range apart, so nothing is left of their
difference only if there was none. -/
theorem two_pow_dvd_sub_iff (ht : IsExtended w x.target) (ho : IsExtended w x.operand) :
    (2 ^ w.bits : Int) ∣ x.target.toInt - x.operand.toInt ↔ x.target = x.operand := by
  obtain ⟨htle, htlt⟩ := (Cell.isExtended_iff_toInt w _).mp ht
  obtain ⟨hole, holt⟩ := (Cell.isExtended_iff_toInt w _).mp ho
  have hhalf := two_pow_bits_int w
  rw [← BitVec.toInt_inj]
  constructor
  · intro hdvd
    have hzero := Int.eq_zero_of_dvd_of_natAbs_lt_natAbs hdvd (by omega)
    omega
  · intro heq
    rw [heq, Int.sub_self]
    exact Int.dvd_zero _

/-- A comparison and a subtraction need not run under one status word: that of the comparison does
not matter. -/
theorem sameOrders_subtract {st : StatusWord} (ht : IsExtended w x.target)
    (ho : IsExtended w x.operand) (hwidth : st.width = w) (hclear : st.carry = false) :
    SameOrders x.compare.status { x with status := st }.subtract.status := by
  have hcompared := compared_compare ht ho
  have hdifference := reports_subtract (x := { x with status := st }) hwidth ht ho
  have hborrow := carry_subtract_iff (x := { x with status := st }) ht ho
  simp only [hclear, Bool.toNat_false] at hdifference hborrow
  rw [Int.natCast_zero, Int.sub_zero] at hdifference
  rw [Nat.add_zero] at hborrow
  have hkeeps : ¬ Operands.DropsCarry w { x with status := st } := by
    rintro ⟨hset, -⟩
    exact absurd (hclear.symm.trans hset) Bool.false_ne_true
  refine ⟨?_, ?_, ?_⟩
  · rw [Bool.eq_iff_iff, Bool.not_eq_true', ← Bool.not_eq_true, hcompared.carry]
    rw [← StatusWord.carry, hborrow, and_iff_left hkeeps]
    exact Nat.not_le.symm
  · rw [Bool.eq_iff_iff, hdifference.zero, hcompared.zero]
    exact two_pow_dvd_sub_iff ht ho
  · rw [hdifference.sign, read_overflow_compare, ← decide_not, decide_eq_decide]
    omega

/-! ## All orders -/

/-- **A comparison decides all orders.** On cells that are sign extended at a width it tells the
unsigned order of their patterns by carry, the signed order of their numbers by overflow and equality
by zero, and changes nothing else that it could. A subtraction at the width that starts with the
carry clear tells the same orders. Every cell is sign extended at sixty-four bits, so there both hold
of any two. -/
theorem compare_decides_orders :
    (∀ (w : Width) (x : Operands), IsExtended w x.target → IsExtended w x.operand →
      x.Compared w x.compare ∧
        ∀ st : StatusWord, st.width = w → st.carry = false →
          SameOrders x.compare.status { x with status := st }.subtract.status) ∧
    ∀ x : Operands,
      x.Compared .w64 x.compare ∧
        ∀ st : StatusWord, st.width = .w64 → st.carry = false →
          SameOrders x.compare.status { x with status := st }.subtract.status := by
  have horders : ∀ (w : Width) (x : Operands), IsExtended w x.target → IsExtended w x.operand →
      x.Compared w x.compare ∧
        ∀ st : StatusWord, st.width = w → st.carry = false →
          SameOrders x.compare.status { x with status := st }.subtract.status := by
    intro w x ht ho
    exact ⟨compared_compare ht ho, fun st => sameOrders_subtract ht ho⟩
  refine ⟨horders, ?_⟩
  intro x
  exact horders .w64 x (Cell.isExtended_whole _) (Cell.isExtended_whole _)

/-- The bytes 1 and 80: the second is greater as a pattern and less as a number, and their difference
does not fit a byte. -/
theorem compare_decides_orders_apart :
    let x : Operands := ⟨1#64, -128#64, StatusWord.clear⟩
    (IsExtended .w8 x.target ∧ IsExtended .w8 x.operand) ∧
      (x.status.width = .w8 ∧ x.status.carry = false) ∧
      (x.compare.status.read .carry = false ∧ x.compare.status.read .overflow = true) ∧
      x.subtract.status.read .carry = true ∧
        (x.subtract.status.read .negative ^^ x.subtract.status.read .overflow) = false := by
  intro x
  have hextended : IsExtended .w8 x.target ∧ IsExtended .w8 x.operand := by decide
  have hstatus : x.status.width = .w8 ∧ x.status.carry = false := by decide
  obtain ⟨hcompared, hsame⟩ := compare_decides_orders.1 .w8 x hextended.1 hextended.2
  have horders := hsame x.status hstatus.1 hstatus.2
  have hcarry : x.compare.status.read .carry = false := by
    rw [Bool.eq_false_iff, ne_eq, hcompared.carry]
    decide
  have hoverflow : x.compare.status.read .overflow = true := hcompared.overflow.mpr (by decide)
  refine ⟨hextended, hstatus, ⟨hcarry, hoverflow⟩, ?_, ?_⟩
  · rw [horders.carry, hcarry]
    rfl
  · rw [horders.sign, hoverflow]
    rfl

end Operands

end Datapath
