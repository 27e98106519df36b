import Datapath.Numeral
import Datapath.Selector

/-!
# Cells

A general register is one 64-bit cell. It has no width of its own: it is read as an unsigned or a
signed number of 8, 16, 32 or 64 bits, and a narrow number is stored sign extended, so that every
wider signed read gives the same number.

Widening and cutting work by masks here (`extend`, `truncate`). `extend_eq` says that the mask form
is the sign extension of the low bits, which is the form that the arithmetic laws use.
-/

set_option autoImplicit false

namespace Datapath

/-- The contents of a general register. -/
abbrev Cell := BitVec 64

namespace Cell

/-! ## Masks -/

/-- The low bits of a width. -/
def mask (w : Width) : Cell :=
  (BitVec.allOnes w.bits).setWidth 64

/-- The highest bit of a width. -/
def signBit (w : Width) : Cell :=
  BitVec.twoPow 64 (w.bits - 1)

/-- Copies the sign bit of a width into every bit above it. -/
def extend (w : Width) (c : Cell) : Cell :=
  if c &&& signBit w = 0 then c &&& mask w else c ||| ~~~ mask w

/-- Clears every bit above a width. -/
def truncate (w : Width) (c : Cell) : Cell :=
  c &&& mask w

/-! ## Narrow reads and writes -/

/-- The low bits of the cell. -/
def unsigned (w : Width) (c : Cell) : BitVec w.bits :=
  c.setWidth w.bits

/-- The low bits of the cell as a two's complement number. -/
def signed (w : Width) (c : Cell) : Int :=
  (unsigned w c).toInt

/-- The cell that stores an unsigned number; its top bit is copied upward all the same. -/
def ofUnsigned (w : Width) (v : BitVec w.bits) : Cell :=
  extend w (v.setWidth 64)

/-- The cell that stores a signed number of a width. -/
def ofSigned (w : Width) (v : BitVec w.bits) : Cell :=
  BitVec.ofInt 64 v.toInt

/-- The sign bit of the whole cell is set. -/
def isNegative (c : Cell) : Bool :=
  c.msb

/-- No bit of the cell is set. -/
def isZero (c : Cell) : Bool :=
  c == 0#64

/-- Cells are ordered as unsigned numbers. -/
def order (c d : Cell) : Ordering :=
  compare c.toNat d.toNat

/-! ## Text -/

/-- The whole cell in sixteen hexadecimal digits. -/
def text (c : Cell) : String :=
  Numeral.hex 16 c.toNat

/-- The whole cell as a signed decimal number. -/
def signedText (c : Cell) : String :=
  Numeral.signed (signed .w64 c)

/-- The trace form of a cell: its pattern and the signed number that it stands for. -/
def trace (c : Cell) : String :=
  "GeneralRegister(0x" ++ text c ++ " = " ++ signedText c ++ ")"

/-! ## The mask form of sign extension -/

/-- The mask of a width has its low bits. -/
theorem getLsbD_mask (w : Width) (i : Nat) : (mask w).getLsbD i = decide (i < w.bits) := by
  have hle : w.bits ≤ 64 := by cases w <;> decide
  simp only [mask, BitVec.getLsbD_setWidth, BitVec.getLsbD_allOnes]
  by_cases h : i < w.bits <;> simp [h]
  omega

example : [Width.w8, .w16, .w32].map (fun w => (signBit w, mask w)) =
    [(0x80#64, 0xFF#64), (0x8000#64, 0xFFFF#64), (0x80000000#64, 0xFFFFFFFF#64)] := by decide

/-- Masking by the sign bit asks for that bit alone. -/
theorem and_signBit_eq_zero_iff (w : Width) (c : Cell) :
    c &&& signBit w = 0 ↔ c.getLsbD (w.bits - 1) = false := by
  have hlt : w.bits - 1 < 64 := by cases w <;> decide
  constructor
  · intro h
    have hbit := congrArg (fun x => x.getLsbD (w.bits - 1)) h
    simpa [signBit, BitVec.getLsbD_twoPow, hlt] using hbit
  · intro h
    apply BitVec.eq_of_getLsbD_eq
    intro i hi
    by_cases hsame : w.bits - 1 = i
    · subst hsame
      simp [h]
    · simp [signBit, BitVec.getLsbD_twoPow, hsame]

/-- The highest of the low bits is the sign bit of the width. -/
theorem msb_unsigned (w : Width) (c : Cell) : (unsigned w c).msb = c.getLsbD (w.bits - 1) := by
  have hpos : w.bits - 1 < w.bits := by cases w <;> decide
  rw [BitVec.msb_eq_getLsbD_last, unsigned, BitVec.getLsbD_setWidth]
  simp only [hpos, decide_true, Bool.true_and]

/-- Widening by masks is the sign extension of the low bits. -/
theorem extend_eq (w : Width) (c : Cell) : extend w c = (unsigned w c).signExtend 64 := by
  apply BitVec.eq_of_getLsbD_eq
  intro i hi
  rw [BitVec.getLsbD_signExtend, msb_unsigned, extend, unsigned, BitVec.getLsbD_setWidth]
  by_cases hsign : c.getLsbD (w.bits - 1) = false
  · rw [if_pos ((and_signBit_eq_zero_iff w c).mpr hsign), BitVec.getLsbD_and, getLsbD_mask]
    by_cases hlow : i < w.bits <;> simp [hlow, hi, hsign]
  · rw [if_neg (fun h => hsign ((and_signBit_eq_zero_iff w c).mp h)), BitVec.getLsbD_or,
      BitVec.getLsbD_not, getLsbD_mask]
    by_cases hlow : i < w.bits
    · simp [hlow, hi]
    · simpa [hlow, hi] using hsign

end Cell

end Datapath
