import Datapath.Proofs.Operation
import Datapath.Proofs.Session
import Datapath.RegisterFile

/-!
# Running operations in place

An operation of the register file runs on copies and is written back. The target takes what the
operation left in it; the source takes what the operation left in its operand, but for a source that
is the target; a failure writes nothing. Everything else in the file is its frame, and keeping the
frame is the invariant that carries these facts from one instruction to a program.
-/

set_option autoImplicit false

namespace Datapath

/-! ## Instructions -/

/-- An operation with the registers that it works on. -/
structure Instruction where
  op : AluOp
  target : Register
  source : Register
  deriving DecidableEq, Repr

namespace Instruction

/-- Runs one instruction; the reply is its value or its fault. -/
def act (i : Instruction) (f : RegisterFile) : Turn RegisterFile (Except ArithmeticFault Unit) :=
  let ran := f.execute i.op i.target i.source
  ⟨ran.state, ran.result, ran.events⟩

theorem state_act (i : Instruction) (f : RegisterFile) :
    (i.act f).state = (f.execute i.op i.target i.source).state := rfl

/-- The instruction may write a register: its target, and the source of a product or a quotient. -/
def Writes (i : Instruction) (r : Register) : Prop :=
  r = i.target ∨ (r = i.source ∧ (i.op = .multiply ∨ i.op = .divide))

instance (i : Instruction) (r : Register) : Decidable (i.Writes r) :=
  inferInstanceAs (Decidable (_ ∨ _))

end Instruction

namespace RegisterFile

variable {f : RegisterFile} {op : AluOp} {target source : Register}

/-- Copies of what an instruction works on. -/
def operands (f : RegisterFile) (target source : Register) : Operands :=
  ⟨f.general.get target, f.general.get source, f.status⟩

/-! ## The frame -/

/-- Two files agree on everything but the general registers and the condition flags. -/
structure SameFrame (f g : RegisterFile) : Prop where
  group : ∀ k : Group, g.group k = f.group k
  pc : g.pc = f.pc
  stackBase : g.stackBase = f.stackBase
  stackPointer : g.stackPointer = f.stackPointer
  modes : g.status.modes = f.status.modes

theorem SameFrame.refl (f : RegisterFile) : f.SameFrame f :=
  ⟨fun _ => rfl, rfl, rfl, rfl, rfl⟩

theorem SameFrame.symm {f g : RegisterFile} (h : f.SameFrame g) : g.SameFrame f where
  group k := (h.group k).symm
  pc := h.pc.symm
  stackBase := h.stackBase.symm
  stackPointer := h.stackPointer.symm
  modes := h.modes.symm

theorem SameFrame.trans {f g h : RegisterFile} (hfg : f.SameFrame g) (hgh : g.SameFrame h) :
    f.SameFrame h where
  group k := (hgh.group k).trans (hfg.group k)
  pc := hgh.pc.trans hfg.pc
  stackBase := hgh.stackBase.trans hfg.stackBase
  stackPointer := hgh.stackPointer.trans hfg.stackPointer
  modes := hgh.modes.trans hfg.modes

/-! ## One instruction -/

theorem result_execute (f : RegisterFile) (op : AluOp) (target source : Register) :
    (f.execute op target source).result = ((f.operands target source).apply op).result := rfl

/-- A success writes the operand back, if the operation may have written it, and then the target. -/
theorem state_execute_of_ok (h : ((f.operands target source).apply op).result = .ok ()) :
    (f.execute op target source).state =
      { f with
        general :=
          (if op.writesOperand then
            f.general.put source ((f.operands target source).apply op).state.operand
          else f.general).put target ((f.operands target source).apply op).state.target
        status := ((f.operands target source).apply op).state.status } := by
  rw [operands] at h ⊢
  simp only [execute, h]

/-- A failure leaves the whole file, for a failed operation leaves the status word too. -/
theorem state_execute_of_error {fault : ArithmeticFault}
    (h : ((f.operands target source).apply op).result = .error fault) :
    (f.execute op target source).state = f := by
  have hstatus := congrArg Operands.status (Operands.apply_state_of_error _ h)
  rw [operands] at h hstatus
  simp only [execute, h, hstatus]

/-- Whatever the outcome, the status word is the one that the operation left. -/
theorem status_execute (f : RegisterFile) (op : AluOp) (target source : Register) :
    (f.execute op target source).state.status =
      ((f.operands target source).apply op).state.status := by
  cases h : ((f.operands target source).apply op).result with
  | error fault =>
    rw [state_execute_of_error h, Operands.apply_state_of_error _ h]
    rfl
  | ok => rw [state_execute_of_ok h]

/-- A success leaves the result in the target, the operand in any other source, and every other
general register as it was. -/
theorem get_execute (h : ((f.operands target source).apply op).result = .ok ()) (r : Register) :
    (f.execute op target source).state.general.get r =
      if r = target then ((f.operands target source).apply op).state.target
      else if r = source then ((f.operands target source).apply op).state.operand
      else f.general.get r := by
  rw [state_execute_of_ok h]
  by_cases htarget : r = target
  · subst htarget
    rw [if_pos rfl]
    exact GeneralRegisters.get_put _ _ _
  · rw [if_neg htarget]
    refine (GeneralRegisters.get_put_of_ne _ _ (Ne.symm htarget)).trans ?_
    by_cases hsource : r = source
    · subst hsource
      rw [if_pos rfl]
      cases hwrites : op.writesOperand with
      | true => rw [if_pos rfl, GeneralRegisters.get_put]
      | false =>
        -- Nothing was written here, and there was nothing to write.
        rw [if_neg Bool.false_ne_true, Operands.operand_apply _ hwrites]
        rfl
    · rw [if_neg hsource]
      cases op.writesOperand with
      | true => rw [if_pos rfl, GeneralRegisters.get_put_of_ne _ _ (Ne.symm hsource)]
      | false => rw [if_neg Bool.false_ne_true]

/-- **One instruction** keeps the frame, whether it succeeds or not. -/
theorem sameFrame_execute (f : RegisterFile) (op : AluOp) (target source : Register) :
    f.SameFrame (f.execute op target source).state := by
  cases h : ((f.operands target source).apply op).result with
  | error fault =>
    rw [state_execute_of_error h]
    exact .refl f
  | ok =>
    rw [state_execute_of_ok h]
    exact ⟨fun k => by cases k <;> rfl, rfl, rfl, rfl, Operands.modes_apply _ op⟩

/-- **One instruction** leaves the registers that it does not write. -/
theorem get_act_of_not_writes {i : Instruction} {r : Register} (h : ¬ i.Writes r)
    (f : RegisterFile) : (i.act f).state.general.get r = f.general.get r := by
  have htarget : r ≠ i.target := fun heq => h (.inl heq)
  rw [Instruction.state_act]
  cases hresult : ((f.operands i.target i.source).apply i.op).result with
  | error fault => rw [state_execute_of_error hresult]
  | ok =>
    rw [get_execute hresult, if_neg htarget]
    by_cases hsource : r = i.source
    · -- A source that is not written holds the operand, and that kind of operation keeps it.
      have hkept : i.op.writesOperand = false := by
        rw [← Bool.not_eq_true, AluOp.writesOperand_iff]
        exact fun hop => h (.inr ⟨hsource, hop⟩)
      rw [if_pos hsource, Operands.operand_apply _ hkept, hsource]
      rfl
    · rw [if_neg hsource]

/-! ## Programs -/

variable {β : Type} (observe : Turn RegisterFile (Except ArithmeticFault Unit) → β)

/-- **A program** keeps the frame. -/
theorem sameFrame_run (program : List Instruction) (f : RegisterFile) :
    f.SameFrame (Session.run Instruction.act observe program f).last := by
  refine Session.last_of_invariant (P := f.SameFrame) ?_ (.refl f)
  intro i _ g hg
  exact hg.trans (sameFrame_execute g i.op i.target i.source)

/-- **A program** leaves the registers that none of its instructions writes. -/
theorem get_run_of_not_writes {program : List Instruction} {r : Register}
    (h : ∀ i ∈ program, ¬ i.Writes r) (f : RegisterFile) :
    (Session.run Instruction.act observe program f).last.general.get r = f.general.get r := by
  refine Session.last_of_invariant
    (P := fun g : RegisterFile => g.general.get r = f.general.get r) ?_ rfl
  intro i hi g hg
  rw [get_act_of_not_writes (h i hi) g, hg]

/-- **Execution is application in place.** An instruction answers as its operation does on copies. It
fails on division by zero only and then changes nothing; otherwise status word, target and source
take what the operation left, the target last, and all else stays. A program keeps the frame of the
file and every general register that is no instruction's target and no product's or quotient's
source. -/
theorem execute_in_place :
    (∀ (f : RegisterFile) (op : AluOp) (target source : Register),
      let applied := (f.operands target source).apply op
      let ran := f.execute op target source
      ran.result = applied.result ∧
        if op = .divide ∧ f.general.get source = 0#64 then
          ran.result = .error .divisionByZero ∧ ran.state = f
        else
          ran.result = .ok () ∧
            ran.state.status = applied.state.status ∧
            (∀ r, ran.state.general.get r =
              if r = target then applied.state.target
              else if r = source then applied.state.operand
              else f.general.get r) ∧
            f.SameFrame ran.state) ∧
    ∀ (program : List Instruction) (f : RegisterFile),
      let last := (Session.run Instruction.act observe program f).last
      f.SameFrame last ∧
        ∀ r, (∀ i ∈ program, ¬ i.Writes r) → last.general.get r = f.general.get r := by
  constructor
  · intro f op target source
    refine ⟨result_execute f op target source, ?_⟩
    have hresult := Operands.apply_result (f.operands target source) op
    by_cases hzero : op = .divide ∧ f.general.get source = 0#64
    · rw [if_pos hzero]
      rw [operands, if_pos hzero] at hresult
      exact ⟨hresult, state_execute_of_error hresult⟩
    · rw [if_neg hzero]
      rw [operands, if_neg hzero] at hresult
      refine ⟨hresult, ?_, get_execute hresult, sameFrame_execute f op target source⟩
      rw [state_execute_of_ok hresult]
  · intro program f
    exact ⟨sameFrame_run observe program f, fun r h => get_run_of_not_writes observe h f⟩

/-- A register that is added and subtracted while the others are multiplied and divided keeps its
number. -/
theorem execute_in_place_source :
    (∀ i ∈ [Instruction.mk .multiply .r0 .r3, ⟨.add, .r0, .r2⟩, ⟨.divide, .r1, .r0⟩,
        ⟨.subtract, .r3, .r2⟩], ¬ i.Writes .r2) ∧
      (Session.run Instruction.act id [⟨.multiply, .r0, .r3⟩, ⟨.add, .r0, .r2⟩,
        ⟨.divide, .r1, .r0⟩, ⟨.subtract, .r3, .r2⟩]
          { initial with general := ⟨6#64, 50#64, 8#64, 7#64⟩ }).last.general.get .r2 = 8#64 := by
  have huntouched : ∀ i ∈ [Instruction.mk .multiply .r0 .r3, ⟨.add, .r0, .r2⟩,
      ⟨.divide, .r1, .r0⟩, ⟨.subtract, .r3, .r2⟩], ¬ i.Writes .r2 := by decide
  exact ⟨huntouched, ((execute_in_place id).2 _ _).2 .r2 huntouched⟩

end RegisterFile

end Datapath
