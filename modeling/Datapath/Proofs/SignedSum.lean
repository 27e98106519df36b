import Datapath.Proofs.Carry

/-!
# Sums and differences as integers

On sign extended cells addition and subtraction are exact arithmetic that is cut to the operand
width. With `s` the exact integer that an operation is about, its target is `s` modulo the width,
sign extended; overflow says that the width cannot hold `s`, zero that nothing of `s` is left, and
negative and overflow together give the sign of `s` whether it fits or not. `Reports` says this of an
outcome, for any `s`; a sum and a difference differ only in the integer and in how the overflow comes
about.

The unit computes on sixty-four bits and cuts afterwards. `extend_ofInt` is the step that makes the
two widths meet: cutting the whole sum is cutting `s` itself.
-/

set_option autoImplicit false

namespace Datapath

namespace Cell

variable {w : Width}

/-- Cutting a whole cell to a width keeps what the width keeps of the integer behind it. -/
theorem extend_ofInt (w : Width) (s : Int) :
    extend w (BitVec.ofInt 64 s) = (BitVec.ofInt w.bits s).signExtend 64 := by
  have hdvd : 2 ^ w.bits ∣ 2 ^ 64 := Nat.pow_dvd_pow 2 (bits_le w)
  rw [← BitVec.toInt_inj, toInt_extend, BitVec.toInt_ofInt,
    BitVec.toInt_signExtend_of_le (bits_le w), BitVec.toInt_ofInt, Int.bmod_bmod_of_dvd hdvd]

theorem toInt_extend_ofInt (w : Width) (s : Int) :
    (extend w (BitVec.ofInt 64 s)).toInt = s.bmod (2 ^ w.bits) := by
  rw [extend_ofInt, BitVec.toInt_signExtend_of_le (bits_le w), BitVec.toInt_ofInt]

theorem IsExtended.signed_eq {c : Cell} (h : IsExtended w c) : signed w c = c.toInt := by
  have hcell : (unsigned w c).signExtend 64 = c := by
    rw [← extend_eq]
    exact h
  have hsigned := congrArg BitVec.toInt hcell
  rwa [BitVec.toInt_signExtend_of_le (bits_le w)] at hsigned

theorem isNegative_eq (c : Cell) : c.isNegative = decide (c.toInt < 0) :=
  BitVec.msb_eq_toInt

theorem isZero_iff (c : Cell) : c.isZero = true ↔ c.toInt = 0 := by
  rw [isZero, beq_iff_eq, ← BitVec.toInt_inj, BitVec.toInt_zero]

/-- The top bit of a sign extended cell is the top bit of the width. -/
theorem IsExtended.isNegative_eq_getLsbD {c : Cell} (h : IsExtended w c) :
    c.isNegative = c.getLsbD (w.bits - 1) := by
  rw [isNegative_eq, ← h.signed_eq, signed, ← BitVec.msb_eq_toInt, msb_unsigned]

/-- An integer less than twice round the width is cut to the number of the width that is at most one
round away. -/
theorem toInt_of_cut {c : Cell} {s : Int} (hc : c = extend w (BitVec.ofInt 64 s))
    (hle : -2 ^ w.bits ≤ s) (hlt : s < 2 ^ w.bits) :
    (-2 ^ (w.bits - 1) ≤ c.toInt ∧ c.toInt < 2 ^ (w.bits - 1)) ∧
      (c.toInt = s ∨ c.toInt = s - 2 ^ w.bits ∨ c.toInt = s + 2 ^ w.bits) := by
  rw [hc, toInt_extend_ofInt, Int.bmod_def]
  cases w <;> simp only [Width.bits] at hle hlt ⊢ <;> omega

end Cell

namespace StatusWord

theorem read_zero_describe (st : StatusWord) (result : Cell) :
    (st.describe result).read .zero = result.isZero := by
  rw [describe, read_write_of_ne _ _ (by decide), read_write]

theorem read_negative_describe (st : StatusWord) (result : Cell) :
    (st.describe result).read .negative = result.isNegative := by
  rw [describe, read_write]

/-- Zero and negative tell of an integer whether it is zero and whether it is below. -/
structure Describes (st : StatusWord) (s : Int) : Prop where
  zero : st.read .zero = true ↔ s = 0
  negative : st.read .negative = true ↔ s < 0

theorem describes_of {st : StatusWord} {s : Int} {zero negative : Bool}
    (hzero : zero = true ↔ s = 0) (hnegative : negative = true ↔ s < 0) :
    ((st.write .zero zero).write .negative negative).Describes s := by
  refine ⟨?_, ?_⟩
  · rw [read_write_of_ne _ _ (by decide), read_write]
    exact hzero
  · rw [read_write]
    exact hnegative

theorem describes_describe (st : StatusWord) (result : Cell) :
    (st.describe result).Describes result.toInt := by
  refine describes_of result.isZero_iff ?_
  rw [Cell.isNegative_eq, decide_eq_true_iff]

end StatusWord

namespace Operands

open Cell (IsExtended)

variable {w : Width} {x : Operands}

theorem two_pow_bits_int (w : Width) : (2 : Int) ^ w.bits = 2 * 2 ^ (w.bits - 1) := by
  cases w <;> rfl

/-! ## Outcomes of an exact integer -/

/-- What an operation leaves whose exact result is `s`. -/
structure Reports (w : Width) (s : Int) (x : Operands) : Prop where
  /-- The target is `s` modulo the width, sign extended. -/
  target : x.target = (BitVec.ofInt w.bits s).signExtend 64
  /-- Overflow says that `s` is no number of the width. -/
  overflow : x.status.read .overflow = true ↔ s < -2 ^ (w.bits - 1) ∨ 2 ^ (w.bits - 1) - 1 < s
  /-- Zero says that the width divides `s`. -/
  zero : x.status.read .zero = true ↔ (2 ^ w.bits : Int) ∣ s
  /-- Negative is the top bit of the width. -/
  negative : x.status.read .negative = x.target.getLsbD (w.bits - 1)
  /-- The two together tell the sign of `s`. -/
  sign : (x.status.read .negative ^^ x.status.read .overflow) = decide (s < 0)

/-- What is left to show of an outcome: that it was cut from `s`, that zero and negative describe it,
and that the overflow is right. -/
theorem reports_of_overflow {s : Int} (hle : -2 ^ w.bits ≤ s) (hlt : s < 2 ^ w.bits)
    (htarget : x.target = Cell.extend w (BitVec.ofInt 64 s))
    (hzero : x.status.read .zero = x.target.isZero)
    (hnegative : x.status.read .negative = x.target.isNegative)
    (hoverflow : x.status.read .overflow = true ↔
      s < -2 ^ (w.bits - 1) ∨ 2 ^ (w.bits - 1) - 1 < s) : x.Reports w s := by
  have hextended : IsExtended w x.target := by
    rw [htarget]
    exact Cell.isExtended_extend w _
  refine ⟨by rw [htarget, Cell.extend_ofInt], hoverflow, ?_, ?_, ?_⟩
  · have hdvd : ((2 ^ w.bits : Nat) : Int) ∣ s ↔ s.bmod (2 ^ w.bits) = 0 :=
      Int.dvd_iff_bmod_eq_zero
    rw [Int.natCast_pow] at hdvd
    rw [hzero, Cell.isZero, beq_iff_eq, ← BitVec.toInt_inj, BitVec.toInt_zero, htarget,
      Cell.toInt_extend_ofInt]
    exact hdvd.symm
  · rw [hnegative, hextended.isNegative_eq_getLsbD]
  · -- A number of the width keeps its sign, and any other `s` loses it by going round once.
    obtain ⟨hrange, hround⟩ := Cell.toInt_of_cut htarget hle hlt
    have hhalf := two_pow_bits_int w
    rw [hnegative, Cell.isNegative_eq, Bool.eq_iff_iff, bne_iff_ne, ne_eq, Bool.eq_iff_iff,
      hoverflow, decide_eq_true_iff, decide_eq_true_iff]
    omega

/-! ## The integers behind the unit -/

theorem carryIn_eq_ofInt (x : Operands) :
    x.carryIn = BitVec.ofInt 64 (x.status.carry.toNat : Int) := by
  rw [carryIn]
  cases x.status.carry <;> rfl

theorem sum_eq_ofInt (x : Operands) :
    x.target + x.operand + x.carryIn =
      BitVec.ofInt 64 (x.target.toInt + x.operand.toInt + x.status.carry.toNat) := by
  rw [BitVec.ofInt_add, BitVec.ofInt_add, BitVec.ofInt_toInt, BitVec.ofInt_toInt, carryIn_eq_ofInt]

theorem difference_eq_ofInt (x : Operands) :
    x.target - x.operand - x.carryIn =
      BitVec.ofInt 64 (x.target.toInt - x.operand.toInt - x.status.carry.toNat) := by
  rw [Int.sub_eq_add_neg, Int.sub_eq_add_neg, BitVec.ofInt_add, BitVec.ofInt_add, BitVec.ofInt_neg,
    BitVec.ofInt_neg, BitVec.ofInt_toInt, BitVec.ofInt_toInt, ← carryIn_eq_ofInt,
    BitVec.sub_eq_add_neg, BitVec.sub_eq_add_neg]

theorem read_overflow_add (x : Operands) :
    x.add.status.read .overflow =
      (x.target.isNegative == x.operand.isNegative && x.target.isNegative != x.add.target.isNegative)
    := by
  simp only [add]
  rw [read_describe_of_ne _ _ (by decide) (by decide), StatusWord.read_write]

theorem read_overflow_subtract (x : Operands) :
    x.subtract.status.read .overflow =
      (x.target.isNegative != x.operand.isNegative &&
        x.target.isNegative != x.subtract.target.isNegative) := by
  simp only [subtract]
  rw [read_describe_of_ne _ _ (by decide) (by decide), StatusWord.read_write]

/-- A sum leaves the width only when both cells have one sign, and then the cut one has the other. -/
theorem reports_add (hw : x.status.width = w) (ht : IsExtended w x.target)
    (ho : IsExtended w x.operand) :
    x.add.Reports w (x.target.toInt + x.operand.toInt + x.status.carry.toNat) := by
  obtain ⟨htle, htlt⟩ := (Cell.isExtended_iff_toInt w _).mp ht
  obtain ⟨hole, holt⟩ := (Cell.isExtended_iff_toInt w _).mp ho
  have hcarry : x.status.carry.toNat ≤ 1 := Bool.toNat_le _
  have hhalf := two_pow_bits_int w
  have htarget : x.add.target = Cell.extend w
      (BitVec.ofInt 64 (x.target.toInt + x.operand.toInt + x.status.carry.toNat)) := by
    rw [← sum_eq_ofInt, ← hw]
    rfl
  obtain ⟨hrange, hround⟩ := Cell.toInt_of_cut htarget (by omega) (by omega)
  refine reports_of_overflow (by omega) (by omega) htarget
    (StatusWord.read_zero_describe _ _) (StatusWord.read_negative_describe _ _) ?_
  rw [read_overflow_add]
  simp only [Cell.isNegative_eq, Bool.and_eq_true, beq_iff_eq, bne_iff_ne, ne_eq, decide_eq_decide]
  omega

/-- A difference leaves the width only when the cells differ in sign, and then the cut one has not
the target's. -/
theorem reports_subtract (hw : x.status.width = w) (ht : IsExtended w x.target)
    (ho : IsExtended w x.operand) :
    x.subtract.Reports w (x.target.toInt - x.operand.toInt - x.status.carry.toNat) := by
  obtain ⟨htle, htlt⟩ := (Cell.isExtended_iff_toInt w _).mp ht
  obtain ⟨hole, holt⟩ := (Cell.isExtended_iff_toInt w _).mp ho
  have hcarry : x.status.carry.toNat ≤ 1 := Bool.toNat_le _
  have hhalf := two_pow_bits_int w
  have htarget : x.subtract.target = Cell.extend w
      (BitVec.ofInt 64 (x.target.toInt - x.operand.toInt - x.status.carry.toNat)) := by
    rw [← difference_eq_ofInt, ← hw]
    rfl
  obtain ⟨hrange, hround⟩ := Cell.toInt_of_cut htarget (by omega) (by omega)
  refine reports_of_overflow (by omega) (by omega) htarget
    (StatusWord.read_zero_describe _ _) (StatusWord.read_negative_describe _ _) ?_
  rw [read_overflow_subtract]
  simp only [Cell.isNegative_eq, Bool.and_eq_true, bne_iff_ne, ne_eq, decide_eq_decide]
  omega

/-! ## Both operations -/

private theorem flag_eq_if {flag : Bool} {out drop : Prop} [Decidable out] [Decidable drop]
    (hflag : flag = true ↔ out ∧ ¬ drop) : flag = if drop then false else decide out := by
  by_cases hdrop : drop
  · rw [if_pos hdrop, Bool.eq_false_iff, ne_eq, hflag]
    exact fun h => h.2 hdrop
  · rw [if_neg hdrop, Bool.eq_iff_iff, hflag, decide_eq_true_iff]
    exact and_iff_left hdrop

/-- **Exact addition and subtraction.** On cells that are sign extended at the operand width, a sum
reports the integer `a + b + c` and a difference `a - b - c`, with `c` the carry that came in. The
carry that is left is the carry out of the two patterns of the width, or the borrow into them, unless
the operand is all ones and the carry came in set: then it leaves clear. -/
theorem add_subtract_exact (hw : x.status.width = w) (ht : IsExtended w x.target)
    (ho : IsExtended w x.operand) :
    let a := Cell.signed w x.target
    let b := Cell.signed w x.operand
    let c := x.status.carry.toNat
    let low := (Cell.unsigned w x.target).toNat
    let low' := (Cell.unsigned w x.operand).toNat
    (x.add.Reports w (a + b + c) ∧
      x.add.status.carry = if x.DropsCarry w then false else decide (2 ^ w.bits ≤ low + low' + c)) ∧
      x.subtract.Reports w (a - b - c) ∧
        x.subtract.status.carry = if x.DropsCarry w then false else decide (low < low' + c) := by
  intro a b c low low'
  have ha : a = x.target.toInt := ht.signed_eq
  have hb : b = x.operand.toInt := ho.signed_eq
  rw [ha, hb]
  exact ⟨⟨reports_add hw ht ho, flag_eq_if (carry_add_iff ht ho)⟩, reports_subtract hw ht ho,
    flag_eq_if (carry_subtract_iff ht ho)⟩

/-- The greatest byte, itself and a carry: the sum 255 is left as -1 with overflow and no carry, and
the difference -1 fits and borrows. -/
theorem add_subtract_exact_greatest_byte :
    let x : Operands :=
      ⟨127#64, 127#64, (StatusWord.clear.write .width .w8).write .carry true⟩
    (x.status.width = .w8 ∧ IsExtended .w8 x.target ∧ IsExtended .w8 x.operand) ∧
      (x.add.target = BitVec.allOnes 64 ∧ x.add.status.read .overflow = true ∧
        x.add.status.carry = false) ∧
      x.subtract.status.read .overflow = false ∧ x.subtract.status.carry = true := by
  intro x
  have hextended : x.status.width = .w8 ∧ IsExtended .w8 x.target ∧ IsExtended .w8 x.operand := by
    decide
  obtain ⟨⟨hsum, hcarry⟩, hdifference, hborrow⟩ :=
    add_subtract_exact hextended.1 hextended.2.1 hextended.2.2
  refine ⟨hextended, ⟨hsum.target.trans (by decide), hsum.overflow.mpr (by decide),
    hcarry.trans (by decide)⟩, ?_, hborrow.trans (by decide)⟩
  rw [Bool.eq_false_iff, ne_eq, hdifference.overflow]
  decide

end Operands

end Datapath
