import Datapath.Cell
import Mathlib.Algebra.Group.Int.Defs
import Mathlib.Algebra.Group.Nat.Defs

/-!
# Cells as numbers

A cell that is sign extended at a width is determined by its low bits, and as an unsigned number it
is those bits, moved up by everything above the width when the top one of them is set. That one
fact, `IsExtended.toNat_eq_or`, is what the laws of carry and borrow need: it turns a comparison of
whole cells into a comparison of their low bits.

Being sign extended is a property here and not a type of its own, because the unit takes any cell:
most of its laws ask for it, and the shifts and products are also about the cells that lack it.
-/

set_option autoImplicit false

namespace Datapath.Cell

variable {w : Width}

theorem bits_le (w : Width) : w.bits ≤ 64 := by
  cases w <;> decide

theorem two_pow_bits_le (w : Width) : 2 ^ w.bits ≤ 2 ^ 64 :=
  Nat.pow_le_pow_right (by decide) (bits_le w)

theorem two_pow_bits (w : Width) : 2 ^ w.bits = 2 * 2 ^ (w.bits - 1) := by
  cases w <;> decide

/-! ## Low bits -/

@[simp] theorem unsigned_extend (w : Width) (c : Cell) :
    unsigned w (extend w c) = unsigned w c := by
  have hle := bits_le w
  rw [extend_eq]
  apply BitVec.eq_of_getLsbD_eq
  intro i hi
  have hcell : i < 64 := by omega
  rw [unsigned, BitVec.getLsbD_setWidth, BitVec.getLsbD_signExtend]
  simp [hi, hcell]

theorem unsigned_setWidth (w : Width) (v : BitVec w.bits) : unsigned w (v.setWidth 64) = v := by
  rw [unsigned, BitVec.setWidth_setWidth_of_le v (bits_le w), BitVec.setWidth_eq]

@[simp] theorem unsigned_ofUnsigned (w : Width) (v : BitVec w.bits) :
    unsigned w (ofUnsigned w v) = v := by
  rw [ofUnsigned, unsigned_extend, unsigned_setWidth]

/-- Cutting by a mask leaves the low bits and nothing above them. -/
theorem truncate_eq (w : Width) (c : Cell) : truncate w c = (unsigned w c).setWidth 64 := by
  apply BitVec.eq_of_getLsbD_eq
  intro i hi
  rw [truncate, BitVec.getLsbD_and, getLsbD_mask, unsigned, BitVec.getLsbD_setWidth,
    BitVec.getLsbD_setWidth, decide_eq_true hi, Bool.true_and, Bool.and_comm]

theorem unsigned_eq_iff (w : Width) (c d : Cell) :
    unsigned w c = unsigned w d ↔ c.toNat % 2 ^ w.bits = d.toNat % 2 ^ w.bits := by
  rw [← BitVec.toNat_inj, unsigned, unsigned, BitVec.toNat_setWidth, BitVec.toNat_setWidth]

theorem unsigned_add (w : Width) (c d : Cell) :
    unsigned w (c + d) = unsigned w c + unsigned w d :=
  BitVec.setWidth_add c d (bits_le w)

theorem unsigned_sub (w : Width) (c d : Cell) :
    unsigned w (c - d) = unsigned w c - unsigned w d := by
  rw [BitVec.sub_eq_add_neg, unsigned_add, BitVec.sub_eq_add_neg]
  congr 1
  exact BitVec.setWidth_neg_of_le (bits_le w)

/-! ## Sign extended cells -/

/-- Every bit above the width repeats the sign bit of the width. -/
def IsExtended (w : Width) (c : Cell) : Prop :=
  extend w c = c

instance (w : Width) (c : Cell) : Decidable (IsExtended w c) :=
  inferInstanceAs (Decidable (_ = _))

/-- Widening looks at the low bits only, so widening again changes nothing. -/
theorem isExtended_extend (w : Width) (c : Cell) : IsExtended w (extend w c) := by
  rw [IsExtended, extend_eq, unsigned_extend, ← extend_eq]

theorem isExtended_ofUnsigned (w : Width) (v : BitVec w.bits) : IsExtended w (ofUnsigned w v) :=
  isExtended_extend w _

/-- A sign extended cell has nothing to tell but its low bits. -/
theorem IsExtended.eq_of_unsigned_eq {c d : Cell} (hc : IsExtended w c) (hd : IsExtended w d)
    (h : unsigned w c = unsigned w d) : c = d := by
  rw [IsExtended, extend_eq] at hc hd
  rw [← hc, ← hd, h]

/-- **The value of a sign extended cell.** While the sign bit of the width is clear it is the value
of the low bits, and once the bit is set all the bits above the width come on top. -/
theorem IsExtended.toNat_eq_or {c : Cell} (h : IsExtended w c) :
    ((unsigned w c).toNat < 2 ^ (w.bits - 1) ∧ c.toNat = (unsigned w c).toNat) ∨
      (2 ^ (w.bits - 1) ≤ (unsigned w c).toNat ∧
        c.toNat + 2 ^ w.bits = (unsigned w c).toNat + 2 ^ 64) := by
  have hwhole := two_pow_bits_le w
  have hlow : (unsigned w c).toNat < 2 ^ 64 := Nat.lt_of_lt_of_le (unsigned w c).isLt hwhole
  have hcell : c = (unsigned w c).signExtend 64 := by rw [← extend_eq]; exact h.symm
  have hvalue := congrArg BitVec.toNat hcell
  rw [BitVec.toNat_signExtend, BitVec.toNat_setWidth, Nat.mod_eq_of_lt hlow,
    BitVec.msb_eq_decide] at hvalue
  -- Extension adds `2 ^ 64 - 2 ^ w.bits` or nothing, as the sign bit has it.
  by_cases hsign : 2 ^ (w.bits - 1) ≤ (unsigned w c).toNat
  · rw [decide_eq_true hsign, if_pos rfl] at hvalue
    exact Or.inr ⟨hsign, by omega⟩
  · rw [decide_eq_false hsign, if_neg (by decide)] at hvalue
    exact Or.inl ⟨by omega, hvalue⟩

/-! ## Signed values -/

/-- As a signed number an extended cell is the residue that is nearest to zero. -/
theorem toInt_extend (w : Width) (c : Cell) : (extend w c).toInt = c.toInt.bmod (2 ^ w.bits) := by
  have hdvd : 2 ^ w.bits ∣ 2 ^ 64 := Nat.pow_dvd_pow 2 (bits_le w)
  rw [extend_eq, BitVec.toInt_signExtend_of_le (bits_le w), unsigned, BitVec.toInt_setWidth,
    BitVec.toInt_eq_toNat_bmod c, Int.bmod_bmod_of_dvd hdvd]

/-- **The range of a sign extended cell.** The sign extended cells are those whose signed number the
width can hold. -/
theorem isExtended_iff_toInt (w : Width) (c : Cell) :
    IsExtended w c ↔ -2 ^ (w.bits - 1) ≤ c.toInt ∧ c.toInt < 2 ^ (w.bits - 1) := by
  have hpos : 0 < 2 ^ w.bits := Nat.two_pow_pos _
  have hdvd : ((2 ^ w.bits : Nat) : Int) ∣ 0 := Int.dvd_zero _
  have hhalf : ((2 ^ w.bits : Nat) : Int) = 2 * 2 ^ (w.bits - 1) := by
    rw [two_pow_bits w, Int.natCast_mul, Int.natCast_pow]
    rfl
  rw [IsExtended, ← BitVec.toInt_inj, toInt_extend, Int.bmod_eq_iff hpos, Int.sub_self]
  constructor
  · rintro ⟨hle, hlt, -⟩
    omega
  · rintro ⟨hle, hlt⟩
    exact ⟨by omega, by omega, hdvd⟩

theorem isExtended_whole (c : Cell) : IsExtended .w64 c := by
  have hle := c.le_toInt
  have hlt := c.toInt_lt
  exact (isExtended_iff_toInt .w64 c).mpr ⟨hle, hlt⟩

end Datapath.Cell
