import Datapath.Proofs.CellValue

/-!
# Widening and cutting

A cell is brought to a width in three ways: the sign bit of the width is copied upward by masks, the
bits above the width are cleared by a mask, or a number of the width is stored by a cast. The ways are
apart in the definitions and come to the same. What is widened twice is widened once, at the narrower
width; of cutting and widening at one width the later alone counts; and the cell that stores a pattern
is the same whether the pattern is taken as an unsigned or as a signed number.

Bit by bit, a widened cell is the old one read at an index that goes no further than the sign bit
(`getLsbD_extend`), and that formula is why widths compose by their minimum. As a number, it is the one
residue in the signed range (`eq_extend_iff`), which is one cell and no other.
-/

set_option autoImplicit false

namespace Datapath

/-- Of two widths the narrower. -/
instance : Min Width where
  min s t := if s.bits ≤ t.bits then s else t

theorem Width.bits_min (s t : Width) : (min s t).bits = min s.bits t.bits := by
  by_cases h : s.bits ≤ t.bits
  · have hmin : min s t = s := if_pos h
    rw [hmin, Nat.min_eq_left h]
  · have hmin : min s t = t := if_neg h
    rw [hmin, Nat.min_eq_right (Nat.le_of_not_le h)]

namespace Cell

/-! ## Widening after widening -/

/-- A widened cell repeats its sign bit, so no index reads beyond that bit. -/
theorem getLsbD_extend (w : Width) (c : Cell) {i : Nat} (hi : i < 64) :
    (extend w c).getLsbD i = c.getLsbD (min i (w.bits - 1)) := by
  rw [extend_eq, BitVec.getLsbD_signExtend, decide_eq_true hi, Bool.true_and]
  by_cases hlow : i < w.bits
  · have hmin : min i (w.bits - 1) = i := by omega
    rw [if_pos hlow, unsigned, BitVec.getLsbD_setWidth, decide_eq_true hlow, Bool.true_and, hmin]
  · have hmin : min i (w.bits - 1) = w.bits - 1 := by omega
    rw [if_neg hlow, msb_unsigned, hmin]

/-- **Widths compose by their minimum.** -/
theorem extend_extend (s t : Width) (c : Cell) : extend s (extend t c) = extend (min s t) c := by
  apply BitVec.eq_of_getLsbD_eq
  intro i hi
  have hinner : min i (s.bits - 1) < 64 := by omega
  have hindex : min (min i (s.bits - 1)) (t.bits - 1) = min i (min s.bits t.bits - 1) := by omega
  rw [getLsbD_extend s _ hi, getLsbD_extend t c hinner, hindex, getLsbD_extend _ c hi,
    Width.bits_min]

/-! ## Widening and cutting at one width -/

/-- Cutting takes away what widening put above the width. -/
theorem truncate_extend (w : Width) (c : Cell) : truncate w (extend w c) = truncate w c := by
  rw [truncate_eq, unsigned_extend, ← truncate_eq]

/-- Widening starts from bits that cutting leaves alone. -/
theorem extend_truncate (w : Width) (c : Cell) : extend w (truncate w c) = extend w c := by
  rw [extend_eq, truncate_eq, unsigned_setWidth, ← extend_eq]

/-! ## The number of a widened cell -/

/-- **The widened cell is the residue in the signed range.** Of the cells that are congruent to a cell
modulo the width, one holds a number that the width can hold. -/
theorem eq_extend_iff (w : Width) (c x : Cell) :
    x = extend w c ↔ x.toNat % 2 ^ w.bits = c.toNat % 2 ^ w.bits ∧
      -2 ^ (w.bits - 1) ≤ x.toInt ∧ x.toInt ≤ 2 ^ (w.bits - 1) - 1 := by
  rw [Int.le_sub_one_iff, ← isExtended_iff_toInt, ← unsigned_eq_iff]
  constructor
  · rintro rfl
    exact ⟨unsigned_extend w c, isExtended_extend w c⟩
  · rintro ⟨hlow, hextended⟩
    refine hextended.eq_of_unsigned_eq (isExtended_extend w c) ?_
    rw [hlow, unsigned_extend]

/-! ## Storing a number -/

/-- The mask and the cast store a pattern alike. -/
theorem ofUnsigned_eq_ofSigned (w : Width) (v : BitVec w.bits) : ofUnsigned w v = ofSigned w v := by
  rw [ofUnsigned, extend_eq, unsigned_setWidth]
  rfl

/-- Storing the low bits of a cell widens the cell. -/
theorem ofUnsigned_unsigned (w : Width) (c : Cell) : ofUnsigned w (unsigned w c) = extend w c := by
  rw [ofUnsigned, ← truncate_eq, extend_truncate]

/-! ## The laws together -/

/-- **All ways to a width agree.** Widening at one width and then at another is widening at the
narrower. Cutting after widening is cutting, widening after cutting is widening, and what widening
gives is the only cell that is congruent to the old one modulo the width and holds, as a signed number,
one of the width. A pattern stored as an unsigned number and as a signed one leaves the same cell, sign
extended, from which both are read back; and the low bits of a cell, stored, leave the widened cell. -/
theorem width_laws :
    (∀ (s t : Width) (c : Cell), extend s (extend t c) = extend (min s t) c) ∧
    (∀ (w : Width) (c : Cell), truncate w (extend w c) = truncate w c ∧
      extend w (truncate w c) = extend w c ∧
      ∀ x, x = extend w c ↔ x.toNat % 2 ^ w.bits = c.toNat % 2 ^ w.bits ∧
        -2 ^ (w.bits - 1) ≤ x.toInt ∧ x.toInt ≤ 2 ^ (w.bits - 1) - 1) ∧
    (∀ (w : Width) (v : BitVec w.bits), ofUnsigned w v = ofSigned w v ∧
      IsExtended w (ofUnsigned w v) ∧ unsigned w (ofUnsigned w v) = v ∧
      signed w (ofUnsigned w v) = v.toInt) ∧
    ∀ (w : Width) (c : Cell), ofUnsigned w (unsigned w c) = extend w c := by
  refine ⟨extend_extend, fun w c => ?_, fun w v => ?_, ofUnsigned_unsigned⟩
  · exact ⟨truncate_extend w c, extend_truncate w c, eq_extend_iff w c⟩
  · have hread : unsigned w (ofUnsigned w v) = v := unsigned_ofUnsigned w v
    exact ⟨ofUnsigned_eq_ofSigned w v, isExtended_ofUnsigned w v, hread,
      congrArg BitVec.toInt hread⟩

end Cell

end Datapath
