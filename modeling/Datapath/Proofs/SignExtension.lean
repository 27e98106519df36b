import Datapath.Proofs.CellValue
import Datapath.Proofs.Dependence
import Datapath.Proofs.Execute

/-!
# Programs on sign extended registers

Most operations cut their result to the operand width by sign extension, and what the registers
held makes no difference. The arithmetic shift and the division cut nothing, and are about
magnitudes: what they make of numbers that the width can hold, it can hold too. One quotient is
excepted, that of the least number by minus one. Hence a program without products keeps the general
registers sign extended up to the first such division (`ExtendedAt.act`), and there it stops doing so
at every width below the whole cell (`ExtendedAt.act_iff`).
-/

set_option autoImplicit false

namespace Datapath

/-! ## Shifts and quotients of sign extended cells -/

namespace Cell

variable {w : Width} {c d : Cell}

/-- Shifting to the right moves a number toward zero, or a negative one toward minus one. -/
theorem IsExtended.sshiftRight (h : IsExtended w c) (n : Nat) : IsExtended w (c.sshiftRight n) := by
  rw [isExtended_iff_toInt] at h ⊢
  obtain ⟨hle, hlt⟩ := h
  rw [BitVec.toInt_sshiftRight]
  rcases Int.le_total 0 c.toInt with hsign | hsign
  · have hlow := Int.le_shiftRight_of_nonneg (s := n) hsign
    have hhigh := Int.shiftRight_le_of_nonneg (s := n) hsign
    omega
  · have hlow := Int.le_shiftRight_of_nonpos (s := n) hsign
    have hhigh := Int.shiftRight_le_of_nonpos (s := n) hsign
    omega

/-- A shift by sixty-four or more leaves copies of the sign, which is what the unit puts there. -/
theorem guarded_sshiftRight (c : Cell) (n : Nat) :
    (if 64 ≤ n then if c.isNegative then BitVec.allOnes 64 else 0#64 else c.sshiftRight n) =
      c.sshiftRight n := by
  by_cases hall : 64 ≤ n
  · rw [if_pos hall]
    apply BitVec.eq_of_getLsbD_eq
    intro i hi
    have hout : ¬ n + i < 64 := by omega
    have hin : ¬ 64 ≤ i := by omega
    -- Every bit has come down from above, where there are only copies of the sign.
    rw [BitVec.getLsbD_sshiftRight, if_neg hout, decide_eq_false hin, Bool.not_false,
      Bool.true_and, isNegative]
    by_cases hsign : c.msb
    · rw [if_pos hsign, hsign, BitVec.getLsbD_allOnes, decide_eq_true hi]
    · rw [if_neg hsign, Bool.eq_false_iff.mpr hsign, BitVec.getLsbD_zero]
  · rw [if_neg hall]

/-- The quotient of these two is one more than the greatest number of the width. -/
def QuotientOverflows (w : Width) (c d : Cell) : Prop :=
  c.toInt = -2 ^ (w.bits - 1) ∧ d.toInt = -1

instance (w : Width) (c d : Cell) : Decidable (QuotientOverflows w c d) :=
  inferInstanceAs (Decidable (_ ∧ _))

/-- A truncated quotient is in the range that the dividend is in, but for the least number of the
range by minus one. -/
theorem tdiv_mem_range {m a b : Int} (hle : -m ≤ a) (hlt : a < m) (hover : ¬ (a = -m ∧ b = -1)) :
    -m ≤ a.tdiv b ∧ a.tdiv b < m := by
  -- A divisor of two or more leaves at most half of the dividend; the small ones are told apart.
  have hdivisor : b = 0 ∨ b = 1 ∨ b = -1 ∨ 2 ≤ b.natAbs := by omega
  rcases hdivisor with rfl | rfl | rfl | hlarge
  · rw [Int.tdiv_zero]
    omega
  · rw [Int.tdiv_one]
    exact ⟨hle, hlt⟩
  · rw [Int.tdiv_neg, Int.tdiv_one]
    omega
  · have hhalf : (a.tdiv b).natAbs ≤ a.natAbs / 2 := by
      rw [Int.natAbs_tdiv]
      exact Nat.div_le_div_left hlarge (by decide)
    omega

theorem IsExtended.sdiv (h : IsExtended w c) (hover : ¬ QuotientOverflows w c d) :
    IsExtended w (c.sdiv d) := by
  rw [isExtended_iff_toInt] at h ⊢
  obtain ⟨hle, hlt⟩ := tdiv_mem_range h.1 h.2 hover
  -- Division wraps at the whole cell, where a quotient in the range of the width does not come.
  have hhalf : (2 : Int) ^ (w.bits - 1) ≤ 2 ^ 63 := by cases w <;> decide
  rw [BitVec.toInt_sdiv, Int.bmod_eq_of_le (by omega) (by omega)]
  exact ⟨hle, hlt⟩

/-- At a width below the whole cell the excepted quotient does leave the width. -/
theorem not_isExtended_sdiv (hnarrow : w ≠ .w64) (hover : QuotientOverflows w c d) :
    ¬ IsExtended w (c.sdiv d) := by
  obtain ⟨hdividend, hdivisor⟩ := hover
  have hpos : (0 : Int) < 2 ^ (w.bits - 1) := by cases w <;> decide
  have hhalf : (2 : Int) ^ (w.bits - 1) < 2 ^ 63 := by
    cases w with
    | w64 => exact absurd rfl hnarrow
    | _ => decide
  rw [isExtended_iff_toInt, BitVec.toInt_sdiv, hdividend, hdivisor, Int.neg_tdiv_neg, Int.tdiv_one,
    Int.bmod_eq_of_le (by omega) (by omega)]
  omega

/-- A remainder is smaller than the divisor. -/
theorem IsExtended.srem (h : IsExtended w d) (hnonzero : d ≠ 0#64) : IsExtended w (c.srem d) := by
  rw [isExtended_iff_toInt] at h ⊢
  have hdivisor : d.toInt ≠ 0 := by
    intro hzero
    exact hnonzero (BitVec.toInt_inj.mp hzero)
  have hsize : (c.toInt.tmod d.toInt).natAbs < d.toInt.natAbs := by
    rw [Int.natAbs_tmod]
    exact Nat.mod_lt _ (Int.natAbs_pos.mpr hdivisor)
  rw [BitVec.toInt_srem]
  omega

end Cell

open Cell (IsExtended QuotientOverflows)

/-! ## Operations -/

/-- The operations that cut their result to the operand width. -/
def AluOp.cutting : List AluOp :=
  [.add, .subtract, .and, .or, .xor, .shiftLeft, .shiftRight]

namespace Operands

variable {w : Width} {x : Operands} {op : AluOp}

theorem isExtended_target_apply (x : Operands) (h : op ∈ AluOp.cutting) :
    IsExtended x.status.width (x.apply op).state.target := by
  cases op with
  | add | subtract | and | or | xor | shiftLeft | shiftRight => exact Cell.isExtended_extend _ _
  | _ => exact absurd h (by decide)

/-- Both cells are sign extended, at the width that the status word selects. -/
structure ExtendedAt (w : Width) (x : Operands) : Prop where
  width : x.status.width = w
  target : IsExtended w x.target
  operand : IsExtended w x.operand

theorem ExtendedAt.shiftRightArithmetic (h : x.ExtendedAt w) :
    IsExtended w x.shiftRightArithmetic.target := by
  rw [Operands.shiftRightArithmetic, Cell.guarded_sshiftRight]
  exact h.target.sshiftRight _

/-- **One operation** keeps the cells sign extended if it is no product and not the excepted
quotient. -/
theorem ExtendedAt.apply (h : x.ExtendedAt w) (hproduct : op ≠ .multiply)
    (hquotient : op = .divide → ¬ QuotientOverflows w x.target x.operand) :
    (x.apply op).state.ExtendedAt w := by
  -- The width is a field that no operation writes, so the cells stay to be looked at.
  have hwidth : (x.apply op).state.status.width = w :=
    (read_apply_of_not_mem x op .width op.width_not_mem_writes).trans h.width
  suffices hcells : IsExtended w (x.apply op).state.target ∧
      IsExtended w (x.apply op).state.operand from ⟨hwidth, hcells.1, hcells.2⟩
  cases op with
  | add | subtract | and | or | xor | shiftLeft | shiftRight =>
    exact ⟨h.width ▸ isExtended_target_apply x (by decide), h.operand⟩
  | compare => exact ⟨h.target, h.operand⟩
  | shiftRightArithmetic => exact ⟨h.shiftRightArithmetic, h.operand⟩
  | multiply => exact absurd rfl hproduct
  | divide =>
    by_cases hzero : x.operand = 0#64
    · have hresult : (x.apply .divide).result = .error .divisionByZero := by
        rw [apply_result, if_pos ⟨rfl, hzero⟩]
      rw [apply_state_of_error x hresult]
      exact ⟨h.target, h.operand⟩
    · rw [Operands.apply, divide_of_nonzero hzero]
      exact ⟨h.target.sdiv (hquotient rfl), h.operand.srem hzero⟩

end Operands

/-! ## Instructions -/

/-- The instruction divides the least number of the width by minus one. -/
def Instruction.Overflows (w : Width) (i : Instruction) (f : RegisterFile) : Prop :=
  i.op = .divide ∧ QuotientOverflows w (f.general.get i.target) (f.general.get i.source)

instance (w : Width) (i : Instruction) (f : RegisterFile) : Decidable (i.Overflows w f) :=
  inferInstanceAs (Decidable (_ ∧ _))

namespace RegisterFile

variable {w : Width} {f : RegisterFile} {i : Instruction}

/-- All general registers are sign extended, at the width that the status word selects. -/
structure ExtendedAt (w : Width) (f : RegisterFile) : Prop where
  width : f.status.width = w
  cells : ∀ r, IsExtended w (f.general.get r)

theorem ExtendedAt.operands (h : f.ExtendedAt w) (target source : Register) :
    (f.operands target source).ExtendedAt w :=
  ⟨h.width, h.cells target, h.cells source⟩

/-- **One instruction** keeps the general registers sign extended if it is no product and not the
excepted quotient, whether it succeeds or not. -/
theorem ExtendedAt.act (h : f.ExtendedAt w) (hproduct : i.op ≠ .multiply)
    (hquotient : ¬ i.Overflows w f) : (i.act f).state.ExtendedAt w := by
  have hafter := (h.operands i.target i.source).apply hproduct (fun hop hover =>
    hquotient ⟨hop, hover⟩)
  rw [Instruction.state_act]
  refine ⟨?_, ?_⟩
  · rw [status_execute]
    exact hafter.width
  · intro r
    cases hresult : ((f.operands i.target i.source).apply i.op).result with
    | error fault =>
      rw [state_execute_of_error hresult]
      exact h.cells r
    | ok =>
      rw [get_execute hresult]
      by_cases htarget : r = i.target
      · rw [if_pos htarget]
        exact hafter.target
      · rw [if_neg htarget]
        by_cases hsource : r = i.source
        · rw [if_pos hsource]
          exact hafter.operand
        · rw [if_neg hsource]
          exact h.cells r

/-- **The exception is one.** At a width below the whole cell the excepted quotient leaves a general
register that is not sign extended. -/
theorem ExtendedAt.act_iff (h : f.ExtendedAt w) (hnarrow : w ≠ .w64) (hproduct : i.op ≠ .multiply) :
    (i.act f).state.ExtendedAt w ↔ ¬ i.Overflows w f := by
  refine ⟨?_, h.act hproduct⟩
  rintro hafter ⟨hop, hover⟩
  have hnonzero : (f.operands i.target i.source).operand ≠ 0#64 := by
    intro hzero
    have hdivisor : (f.operands i.target i.source).operand.toInt = -1 := hover.2
    rw [hzero] at hdivisor
    exact absurd hdivisor (by decide)
  have happlied : (f.operands i.target i.source).apply i.op =
      .done (f.operands i.target i.source).divideNonzero () := by
    rw [hop]
    exact Operands.divide_of_nonzero hnonzero
  have hresult : ((f.operands i.target i.source).apply i.op).result = .ok () := by
    rw [happlied]
    rfl
  have hquotient : (i.act f).state.general.get i.target =
      (f.general.get i.target).sdiv (f.general.get i.source) := by
    rw [Instruction.state_act, get_execute hresult, if_pos rfl, happlied]
    rfl
  have hextended := hafter.cells i.target
  rw [hquotient] at hextended
  exact Cell.not_isExtended_sdiv hnarrow hover hextended

/-! ## Programs -/

variable {β : Type} (observe : Turn RegisterFile (Except ArithmeticFault Unit) → β)

/-- **Programs keep registers sign extended.** At any operand width, a program without products that
never comes to divide the least number of the width by minus one keeps all four general registers
sign extended at the width after every step, failing divisions included. And the operations that cut
their result succeed and leave their target sign extended whatever the registers held. -/
theorem program_keeps_sign_extended :
    (∀ (w : Width) (f : RegisterFile) (program : List Instruction),
      f.status.width = w → (∀ r, IsExtended w (f.general.get r)) →
      (∀ i ∈ program, i.op ≠ .multiply) →
      (∀ n (h : n < program.length), ¬ program[n].Overflows w
        (Session.run Instruction.act observe (program.take n) f).last) →
      ∀ n, let last := (Session.run Instruction.act observe (program.take n) f).last
        last.status.width = w ∧ ∀ r, IsExtended w (last.general.get r)) ∧
    ∀ (f : RegisterFile) (op : AluOp) (target source : Register), op ∈ AluOp.cutting →
      let ran := f.execute op target source
      ran.result = .ok () ∧ IsExtended f.status.width (ran.state.general.get target) := by
  constructor
  · intro w f program hwidth hcells hproducts hquotients n last
    have hlast : last.ExtendedAt w := by
      refine Session.last_of_invariant_along (P := ExtendedAt w) ?_ ⟨hwidth, hcells⟩ n
      intro k hk hbefore
      exact hbefore.act (hproducts _ (List.getElem_mem hk)) (hquotients k hk)
    exact ⟨hlast.width, hlast.cells⟩
  · intro f op target source hop ran
    have hresult : ran.result = .ok () := by
      rw [result_execute, Operands.apply_result, if_neg]
      rintro ⟨rfl, -⟩
      exact absurd hop (by decide)
    refine ⟨hresult, ?_⟩
    rw [get_execute hresult, if_pos rfl]
    exact Operands.isExtended_target_apply (f.operands target source) hop

/-- The least byte, by zero, shifted right and only then divided by minus one. -/
theorem program_keeps_sign_extended_bytes :
    let file : RegisterFile :=
      { initial with
        general := ⟨-128#64, -1#64, 0#64, 2#64⟩
        status := StatusWord.clear.write .width .w8 }
    let program : List Instruction :=
      [⟨.divide, .r0, .r2⟩, ⟨.shiftRightArithmetic, .r0, .r3⟩, ⟨.divide, .r0, .r1⟩]
    (∀ n (h : n < program.length), ¬ program[n].Overflows .w8
        (Session.run Instruction.act id (program.take n) file).last) ∧
      (∀ n r, IsExtended .w8
        ((Session.run Instruction.act id (program.take n) file).last.general.get r)) ∧
      Instruction.Overflows .w8 ⟨.divide, .r0, .r1⟩ file := by
  intro file program
  have hcells : ∀ r, IsExtended .w8 (file.general.get r) := by
    intro r
    cases r <;> decide
  have hquotients : ∀ n (h : n < program.length), ¬ program[n].Overflows .w8
      (Session.run Instruction.act id (program.take n) file).last := by decide
  have hkept := (program_keeps_sign_extended id).1 .w8 file program (by decide) hcells
    (by decide) hquotients
  exact ⟨hquotients, fun n => (hkept n).2, by decide⟩

end RegisterFile

end Datapath
