import Datapath.Status.Field

/-!
# The status word

A status word is its thirty-two bits and nothing else: every pattern is a legal word. A field is
read by cutting its bits out and decoding them, and written by clearing its bits and putting the
code of the new value there. The two laws of a write are `read_write` and `read_write_of_ne`: the
field holds what was written, and no other field notices. `ext_read` says that the thirteen fields
are all there is to a word.
-/

set_option autoImplicit false

namespace Datapath

/-- The packed flags and modes of the machine. -/
structure StatusWord where
  /-- The raw pattern. -/
  bits : BitVec 32
  deriving DecidableEq, Repr

namespace StatusWord

/-- The word with every bit clear: no flag, addressing `Ptr`, register 0, both banks 0, bytes as
operands, integer arithmetic. -/
def clear : StatusWord := ⟨0#32⟩

/-! ## Reading and writing a field -/

/-- The bits of a field, and no others. -/
def mask (f : Field) : BitVec 32 :=
  (BitVec.allOnes f.size).setWidth 32 <<< f.offset

/-- The value that a field holds. -/
def read (w : StatusWord) (f : Field) : f.Value :=
  Coded.decode (w.bits.extractLsb' f.offset (Coded.size f.Value))

/-- The word with a field replaced. -/
def write (w : StatusWord) (f : Field) (v : f.Value) : StatusWord :=
  ⟨(w.bits &&& ~~~ mask f) ||| ((Coded.code v).setWidth 32 <<< f.offset)⟩

/-- The word with a flag set to the outcome of a test. -/
def assign (w : StatusWord) (flag : Flag) (on : Bool) : StatusWord :=
  match flag with
  | .carry => w.write .carry on
  | .overflow => w.write .overflow on
  | .zero => w.write .zero on
  | .negative => w.write .negative on

/-- Whether a flag is set. -/
def flag (w : StatusWord) : Flag → Bool
  | .carry => w.read .carry
  | .overflow => w.read .overflow
  | .zero => w.read .zero
  | .negative => w.read .negative

/-! ## The fields that steer the machine -/

/-- The carry flag, which addition and subtraction take in. -/
def carry (w : StatusWord) : Bool := w.read .carry

/-- The operand width. -/
def width (w : StatusWord) : Width := w.read .width

/-- The selected general register. -/
def register (w : StatusWord) : Register := w.read .register

/-- The active bank of pointer, offset, index and index step registers. -/
def pointerBank (w : StatusWord) : Bank := w.read .pointerBank

/-- The active bank of counter and counter step registers. -/
def counterBank (w : StatusWord) : Bank := w.read .counterBank

/-! ## The laws of a write -/

/-- The mask of a field has the bits that lie in it. -/
theorem getLsbD_mask (f : Field) (i : Nat) : (mask f).getLsbD i = decide (f.Covers i) := by
  have hlen := f.offset_add_size_le
  simp only [mask, BitVec.getLsbD_shiftLeft, BitVec.getLsbD_setWidth, BitVec.getLsbD_allOnes,
    Field.Covers]
  by_cases h : f.offset ≤ i <;> by_cases h' : i < f.offset + f.size <;> simp [h, h'] <;> omega

/-- Inside the field a write shows the code of the new value, outside of it the old bits. -/
theorem getLsbD_write (w : StatusWord) (f : Field) (v : f.Value) (i : Nat) :
    (w.write f v).bits.getLsbD i =
      if f.Covers i then (Coded.code v).getLsbD (i - f.offset) else w.bits.getLsbD i := by
  have hlen := f.offset_add_size_le
  have hsize : Coded.size f.Value = f.size := rfl
  simp only [write, BitVec.getLsbD_or, BitVec.getLsbD_and, BitVec.getLsbD_not, getLsbD_mask,
    BitVec.getLsbD_shiftLeft, BitVec.getLsbD_setWidth]
  by_cases hcover : f.Covers i
  · have hi : i < 32 := by unfold Field.Covers at hcover; omega
    have hlow : ¬ i < f.offset := by unfold Field.Covers at hcover; omega
    simp [hcover, hi, hlow]
    omega
  · have hout : i < f.offset ∨ f.size ≤ i - f.offset := by unfold Field.Covers at hcover; omega
    rcases hout with hlow | hhigh
    · by_cases hi : i < 32
      · simp [hcover, hlow, hi]
      · simp [hcover, hi, BitVec.getLsbD_of_ge w.bits i (by omega)]
    · by_cases hi : i < 32
      · simp [hcover, hi, BitVec.getLsbD_of_ge (Coded.code v) (i - f.offset) (by omega)]
      · simp [hcover, hi, BitVec.getLsbD_of_ge w.bits i (by omega)]

/-- A field holds what was last written to it. -/
@[simp] theorem read_write (w : StatusWord) (f : Field) (v : f.Value) :
    (w.write f v).read f = v := by
  have hbits : (w.write f v).bits.extractLsb' f.offset (Coded.size f.Value) = Coded.code v := by
    apply BitVec.eq_of_getLsbD_eq
    intro i hi
    have hcover : f.Covers (f.offset + i) := ⟨by omega, by show _ < f.offset + Coded.size f.Value; omega⟩
    simp [getLsbD_write, hcover, hi]
  rw [read, hbits, Coded.decode_code]

/-- A write leaves every other field alone. -/
theorem read_write_of_ne (w : StatusWord) {f g : Field} (v : f.Value) (h : f ≠ g) :
    (w.write f v).read g = w.read g := by
  have hbits : (w.write f v).bits.extractLsb' g.offset (Coded.size g.Value) =
      w.bits.extractLsb' g.offset (Coded.size g.Value) := by
    apply BitVec.eq_of_getLsbD_eq
    intro i hi
    have hapart := Field.disjoint_of_ne h
    have hsize : Coded.size g.Value = g.size := rfl
    have hcover : ¬ f.Covers (g.offset + i) := by unfold Field.Covers; omega
    simp [getLsbD_write, hcover, hi]
  rw [read, read, hbits]

/-- Where two words agree on a field they agree on its bits. -/
theorem getLsbD_of_read_eq {w z : StatusWord} {f : Field} (h : w.read f = z.read f) {i : Nat}
    (hcover : f.Covers i) : w.bits.getLsbD i = z.bits.getLsbD i := by
  obtain ⟨hlow, hhigh⟩ := hcover
  have hcut := congrArg Coded.code h
  rw [read, read, Coded.code_decode, Coded.code_decode] at hcut
  have hbit := congrArg (fun c => c.getLsbD (i - f.offset)) hcut
  have hsize : Coded.size f.Value = f.size := rfl
  have hin : i - f.offset < Coded.size f.Value := by omega
  have hback : f.offset + (i - f.offset) = i := by omega
  simpa [hin, hback] using hbit

/-- Two words that agree on every field are the same word. -/
theorem ext_read {w z : StatusWord} (h : ∀ f : Field, w.read f = z.read f) : w = z := by
  have hbits : w.bits = z.bits := by
    apply BitVec.eq_of_getLsbD_eq
    intro i hi
    obtain ⟨f, -, hcover⟩ := Field.exists_covering i hi
    exact getLsbD_of_read_eq (h f) hcover
  cases w; cases z; cases hbits; rfl

/-- Writes to two fields may change places. -/
theorem write_comm (w : StatusWord) {f g : Field} (v : f.Value) (u : g.Value) (h : f ≠ g) :
    (w.write f v).write g u = (w.write g u).write f v := by
  apply ext_read
  intro k
  by_cases hf : f = k
  · subst hf
    rw [read_write_of_ne _ u (Ne.symm h), read_write, read_write]
  · rw [read_write_of_ne _ v hf]
    by_cases hg : g = k
    · subst hg
      rw [read_write, read_write]
    · rw [read_write_of_ne _ u hg, read_write_of_ne _ u hg, read_write_of_ne _ v hf]

end StatusWord

end Datapath
