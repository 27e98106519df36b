import Datapath.Proofs.Shift

/-!
# Bits above the operand width

Seven operations compute on whole cells and cut the result to the operand width at the end, or, for
the shift to the right, at the start and at the end. What a cell holds above the width is lost on
the way: the low bits of the target are those of the same operation on words of the width, and the
sign extension puts everything above them anew. So two runs from one status word whose cells differ
above the width only leave one target, and zero and negative, which describe that target, agree.

The count of a shift is taken whole. It is a number and not a pattern of the width, and a count of
256 moves every bit of a byte out although its low eight bits are clear.
-/

set_option autoImplicit false

namespace Datapath

open Cell (IsExtended)
open StatusWord (SameOn)

namespace Operands

variable {w : Width} {x y : Operands} {op : AluOp}

/-! ## Low bits of a result -/

theorem unsigned_target_settleExtended (hw : x.status.width = w) (value : Cell) :
    Cell.unsigned w (x.settleExtended value).target = Cell.unsigned w value := by
  rw [settleExtended, settle, hw, Cell.unsigned_extend]

theorem unsigned_target_conjoin (hw : x.status.width = w) :
    Cell.unsigned w x.conjoin.target = Cell.unsigned w x.target &&& Cell.unsigned w x.operand := by
  rw [conjoin, unsigned_target_settleExtended hw]
  exact BitVec.setWidth_and

theorem unsigned_target_disjoin (hw : x.status.width = w) :
    Cell.unsigned w x.disjoin.target = Cell.unsigned w x.target ||| Cell.unsigned w x.operand := by
  rw [disjoin, unsigned_target_settleExtended hw]
  exact BitVec.setWidth_or

theorem unsigned_target_differ (hw : x.status.width = w) :
    Cell.unsigned w x.differ.target = Cell.unsigned w x.target ^^^ Cell.unsigned w x.operand := by
  rw [differ, unsigned_target_settleExtended hw]
  exact BitVec.setWidth_xor

theorem unsigned_target_shiftLeft (hw : x.status.width = w) :
    Cell.unsigned w x.shiftLeft.target = Cell.unsigned w x.target <<< x.operand.toNat := by
  have htarget : x.shiftLeft.target = Shift.left.value x.status.width x.target x.operand.toNat :=
    target_run .left x
  rw [htarget, hw, Shift.value, Cell.unsigned_signExtend]

theorem unsigned_target_shiftRight (hw : x.status.width = w) :
    Cell.unsigned w x.shiftRight.target = Cell.unsigned w x.target >>> x.operand.toNat := by
  have htarget : x.shiftRight.target = Shift.right.value x.status.width x.target x.operand.toNat :=
    target_run .right x
  rw [htarget, hw, Shift.value, Cell.unsigned_signExtend]

/-- Two operands that an operation does not tell apart at a width: as counts they are equal, as
words they have the same low bits. -/
def AgreeOperand (op : AluOp) (w : Width) (b b' : Cell) : Prop :=
  if op ∈ [.shiftLeft, .shiftRight] then b = b'
  else b.toNat % 2 ^ w.bits = b'.toNat % 2 ^ w.bits

instance (op : AluOp) (w : Width) (b b' : Cell) : Decidable (AgreeOperand op w b b') := by
  unfold AgreeOperand
  infer_instance

theorem AgreeOperand.unsigned_eq {b b' : Cell} (h : AgreeOperand op w b b')
    (hop : op ∉ [AluOp.shiftLeft, AluOp.shiftRight]) : Cell.unsigned w b = Cell.unsigned w b' := by
  rw [AgreeOperand, if_neg hop] at h
  exact (Cell.unsigned_eq_iff w b b').mpr h

theorem AgreeOperand.count_eq {b b' : Cell} (h : AgreeOperand op w b b')
    (hop : op ∈ [AluOp.shiftLeft, AluOp.shiftRight]) : b = b' := by
  rwa [AgreeOperand, if_pos hop] at h

/-- **Low bits come from low bits.** -/
theorem unsigned_target_apply_congr (hop : op ∈ AluOp.cutting) (hstatus : x.status = y.status)
    (hw : x.status.width = w) (htarget : Cell.unsigned w x.target = Cell.unsigned w y.target)
    (hoperand : AgreeOperand op w x.operand y.operand) :
    Cell.unsigned w (x.apply op).state.target = Cell.unsigned w (y.apply op).state.target := by
  have hw' : y.status.width = w := hstatus ▸ hw
  have hcarry : x.carryIn = y.carryIn := carryIn_congr (congrArg StatusWord.carry hstatus)
  cases op with
  | add =>
    have hlow := hoperand.unsigned_eq (by decide)
    show Cell.unsigned w x.add.target = Cell.unsigned w y.add.target
    rw [unsigned_target_add hw, unsigned_target_add hw', htarget, hlow, hcarry]
  | subtract =>
    have hlow := hoperand.unsigned_eq (by decide)
    show Cell.unsigned w x.subtract.target = Cell.unsigned w y.subtract.target
    rw [unsigned_target_subtract hw, unsigned_target_subtract hw', htarget, hlow, hcarry]
  | and =>
    have hlow := hoperand.unsigned_eq (by decide)
    show Cell.unsigned w x.conjoin.target = Cell.unsigned w y.conjoin.target
    rw [unsigned_target_conjoin hw, unsigned_target_conjoin hw', htarget, hlow]
  | or =>
    have hlow := hoperand.unsigned_eq (by decide)
    show Cell.unsigned w x.disjoin.target = Cell.unsigned w y.disjoin.target
    rw [unsigned_target_disjoin hw, unsigned_target_disjoin hw', htarget, hlow]
  | xor =>
    have hlow := hoperand.unsigned_eq (by decide)
    show Cell.unsigned w x.differ.target = Cell.unsigned w y.differ.target
    rw [unsigned_target_differ hw, unsigned_target_differ hw', htarget, hlow]
  | shiftLeft =>
    have hcount := hoperand.count_eq (by decide)
    show Cell.unsigned w x.shiftLeft.target = Cell.unsigned w y.shiftLeft.target
    rw [unsigned_target_shiftLeft hw, unsigned_target_shiftLeft hw', htarget, hcount]
  | shiftRight =>
    have hcount := hoperand.count_eq (by decide)
    show Cell.unsigned w x.shiftRight.target = Cell.unsigned w y.shiftRight.target
    rw [unsigned_target_shiftRight hw, unsigned_target_shiftRight hw', htarget, hcount]
  | _ => exact absurd hop (by decide)

/-! ## Zero and negative of a result -/

theorem describes_apply (x : Operands) (hop : op ∈ AluOp.cutting) :
    let after := (x.apply op).state
    after.status.read .zero = after.target.isZero ∧
      after.status.read .negative = after.target.isNegative := by
  cases op with
  | add | subtract | and | or | xor | shiftLeft | shiftRight =>
    exact ⟨StatusWord.read_zero_describe _ _, StatusWord.read_negative_describe _ _⟩
  | _ => exact absurd hop (by decide)

/-- **Bits above the operand width are not seen.** An operation that cuts its result succeeds, and
from one status word two targets that are equal modulo the width, with operands that are so too or,
as counts, are equal, leave the same target, zero and negative. -/
theorem high_bits_unseen (hop : op ∈ AluOp.cutting) (st : StatusWord) {a a' b b' : Cell}
    (htarget : a.toNat % 2 ^ st.width.bits = a'.toNat % 2 ^ st.width.bits)
    (hoperand : AgreeOperand op st.width b b') :
    let ran := (⟨a, b, st⟩ : Operands).apply op
    let ran' := (⟨a', b', st⟩ : Operands).apply op
    (ran.result = .ok () ∧ ran'.result = .ok ()) ∧ ran.state.target = ran'.state.target ∧
      SameOn [.zero, .negative] ran.state.status ran'.state.status := by
  intro ran ran'
  have hok : ∀ x : Operands, (x.apply op).result = .ok () := by
    intro x
    rw [apply_result, if_neg]
    rintro ⟨rfl, -⟩
    exact absurd hop (by decide)
  have hlow : Cell.unsigned st.width ran.state.target = Cell.unsigned st.width ran'.state.target :=
    unsigned_target_apply_congr hop rfl rfl ((Cell.unsigned_eq_iff _ a a').mpr htarget) hoperand
  -- Both targets are sign extended at the width, so their low bits are all there is to compare.
  have hextended : IsExtended st.width ran.state.target := isExtended_target_apply ⟨a, b, st⟩ hop
  have hextended' : IsExtended st.width ran'.state.target :=
    isExtended_target_apply ⟨a', b', st⟩ hop
  have hsame : ran.state.target = ran'.state.target := hextended.eq_of_unsigned_eq hextended' hlow
  obtain ⟨hzero, hnegative⟩ := describes_apply ⟨a, b, st⟩ hop
  obtain ⟨hzero', hnegative'⟩ := describes_apply ⟨a', b', st⟩ hop
  refine ⟨⟨hok _, hok _⟩, hsame, ?_⟩
  intro f hf
  rcases List.mem_cons.mp hf with rfl | hrest
  · exact hzero.trans ((congrArg Cell.isZero hsame).trans hzero'.symm)
  · rw [List.mem_singleton.mp hrest]
    exact hnegative.trans ((congrArg Cell.isNegative hsame).trans hnegative'.symm)

/-- The byte 133 with ones above it and with other bits above it, shifted right by two, is 33 both
times. As a sum with the byte 123, junk above that one too, it is zero both times. -/
theorem high_bits_unseen_byte :
    let st := StatusWord.clear
    let a : Cell := 0xFFFFFFFFFFFFFF85#64
    let a' : Cell := 0x0123456789ABCD85#64
    (AluOp.shiftRight ∈ AluOp.cutting ∧ AluOp.add ∈ AluOp.cutting) ∧
      (st.width = .w8 ∧ a.toNat % 2 ^ st.width.bits = a'.toNat % 2 ^ st.width.bits) ∧
      (AgreeOperand .shiftRight st.width 2#64 2#64 ∧
        AgreeOperand .add st.width 0x7B#64 0xBEEF7B#64) ∧
      ((⟨a, 2#64, st⟩ : Operands).apply .shiftRight).state.target = 33#64 ∧
      ((⟨a', 2#64, st⟩ : Operands).apply .shiftRight).state.target = 33#64 ∧
      ((⟨a', 0xBEEF7B#64, st⟩ : Operands).apply .add).state.status.read .zero = true := by
  intro st a a'
  have hops : AluOp.shiftRight ∈ AluOp.cutting ∧ AluOp.add ∈ AluOp.cutting := by decide
  have hlow : st.width = .w8 ∧ a.toNat % 2 ^ st.width.bits = a'.toNat % 2 ^ st.width.bits := by
    decide
  have hagree : AgreeOperand .shiftRight st.width 2#64 2#64 ∧
      AgreeOperand .add st.width 0x7B#64 0xBEEF7B#64 := by decide
  have hfirst : ((⟨a, 2#64, st⟩ : Operands).apply .shiftRight).state.target = 33#64 := by decide
  obtain ⟨-, hshifted, -⟩ := high_bits_unseen hops.1 st hlow.2 hagree.1
  obtain ⟨-, -, hflags⟩ := high_bits_unseen hops.2 st hlow.2 hagree.2
  have hzero := hflags .zero (by decide)
  exact ⟨hops, hlow, hagree, hfirst, hshifted.symm.trans hfirst, hzero.symm.trans (by decide)⟩

end Operands

end Datapath
