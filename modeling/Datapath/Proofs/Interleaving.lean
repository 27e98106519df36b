import Datapath.Proofs.Dependence
import Datapath.Proofs.Execute

/-!
# Programs side by side

Two programs that name no register in common, and of which neither writes the carry where the other
takes it in, do not notice each other. However their instructions are merged, each program finds in
its registers, in the operand width and in the carry what it would find if it ran alone
(`run_part`): its own instructions keep the two runs alike, and those of the other program write
nothing that it looks at. Merged in another order the two leave the same file but for the condition
flags.
-/

set_option autoImplicit false

namespace Datapath

open StatusWord (SameOn)

/-! ## Merged lists -/

/-- One of two lists that are merged. -/
inductive Side
  | first | second
  deriving DecidableEq, Repr

namespace Side

variable {α : Type}

/-- What comes from one side, in the order in which it comes. -/
def part (k : Side) (merged : List (Side × α)) : List α :=
  (merged.filter fun entry => entry.1 = k).map Prod.snd

theorem part_cons_self (k : Side) (a : α) (rest : List (Side × α)) :
    k.part ((k, a) :: rest) = a :: k.part rest := by
  rw [part, List.filter_cons_of_pos (by simp), List.map_cons, part]

theorem part_cons_of_ne {k l : Side} (h : l ≠ k) (a : α) (rest : List (Side × α)) :
    k.part ((l, a) :: rest) = k.part rest := by
  rw [part, List.filter_cons_of_neg (by simpa using h), part]

/-- A merged list is made of these two. -/
def IsMerge (first second : List α) (merged : List (Side × α)) : Prop :=
  Side.first.part merged = first ∧ Side.second.part merged = second

instance [DecidableEq α] (first second : List α) (merged : List (Side × α)) :
    Decidable (IsMerge first second merged) :=
  inferInstanceAs (Decidable (_ ∧ _))

/-- The list of a side. -/
def list (first second : List α) : Side → List α
  | .first => first
  | .second => second

theorem IsMerge.part_eq {first second : List α} {merged : List (Side × α)}
    (h : IsMerge first second merged) (k : Side) : k.part merged = k.list first second := by
  cases k with
  | first => exact h.1
  | second => exact h.2

theorem IsMerge.mem {first second : List α} {merged : List (Side × α)}
    (h : IsMerge first second merged) {k : Side} {a : α} (ha : (k, a) ∈ merged) :
    a ∈ k.list first second := by
  rw [← h.part_eq]
  exact List.mem_map_of_mem (List.mem_filter.mpr ⟨ha, decide_eq_true rfl⟩)

end Side

/-! ## What a program looks at -/

namespace Instruction

/-- Runs an instruction for the side that it comes from; the reply says which. -/
def actFor (entry : Side × Instruction) (f : RegisterFile) :
    Turn RegisterFile (Side × Except ArithmeticFault Unit) :=
  let turn := entry.2.act f
  ⟨turn.state, (entry.1, turn.reply), turn.events⟩

/-- The registers that an instruction names. -/
def registers (i : Instruction) : List Register := [i.target, i.source]

theorem mem_registers_of_writes {i : Instruction} {r : Register} (h : i.Writes r) :
    r ∈ i.registers := by
  rcases h with rfl | ⟨rfl, -⟩
  · exact List.mem_cons_self
  · exact List.mem_cons_of_mem _ List.mem_cons_self

end Instruction

/-- The registers that a program names. -/
def registersOf (program : List Instruction) : List Register :=
  program.flatMap Instruction.registers

/-- The fields of the status word that a program takes in. -/
def fieldsOf (program : List Instruction) : List Field :=
  program.flatMap fun i => i.op.reads

/-- An instruction writes nothing that the program looks at. -/
def Instruction.Spares (i : Instruction) (program : List Instruction) : Prop :=
  (∀ r ∈ registersOf program, ¬ i.Writes r) ∧ ∀ g ∈ i.op.writes, g ∉ fieldsOf program

/-- Two programs that do not notice each other: they name no register in common, and where one adds
or subtracts, and so takes in the carry, the other does nothing that writes it. -/
structure Independent (first second : List Instruction) : Prop where
  registers : ∀ i ∈ first, ∀ j ∈ second, ∀ r ∈ i.registers, r ∉ j.registers
  carry_first : ∀ i ∈ first, ∀ j ∈ second,
    i.op ∈ [.add, .subtract] → j.op ∉ [.add, .subtract, .compare]
  carry_second : ∀ i ∈ first, ∀ j ∈ second,
    j.op ∈ [.add, .subtract] → i.op ∉ [.add, .subtract, .compare]

/-- The carry is the only field that one operation takes in and another writes. -/
theorem AluOp.not_mem_writes {op op' : AluOp} {f : Field} (hreads : f ∈ op.reads)
    (h : op ∈ [.add, .subtract] → op' ∉ [.add, .subtract, .compare]) : f ∉ op'.writes := by
  obtain rfl | ⟨rfl, hop⟩ := mem_reads hreads
  · exact width_not_mem_writes op'
  · rw [carry_mem_writes_iff]
    exact h hop

namespace Independent

variable {first second : List Instruction}

theorem symm (h : Independent first second) : Independent second first where
  registers j hj i hi r hr hr' := h.registers i hi j hj r hr' hr
  carry_first j hj i hi := h.carry_second i hi j hj
  carry_second j hj i hi := h.carry_first i hi j hj

theorem spares (h : Independent first second) {j : Instruction} (hj : j ∈ second) :
    j.Spares first := by
  constructor
  · intro r hr hwrites
    obtain ⟨i, hi, hir⟩ := List.mem_flatMap.mp hr
    exact h.registers i hi j hj r hir (Instruction.mem_registers_of_writes hwrites)
  · intro g hg hfield
    obtain ⟨i, hi, hreads⟩ := List.mem_flatMap.mp hfield
    exact AluOp.not_mem_writes hreads (h.carry_first i hi j hj) hg

theorem spares_list (h : Independent first second) {k l : Side} (hne : l ≠ k) {j : Instruction}
    (hj : j ∈ l.list first second) : j.Spares (k.list first second) := by
  cases k with
  | first =>
    cases l with
    | first => exact absurd rfl hne
    | second => exact h.spares hj
  | second =>
    cases l with
    | first => exact h.symm.spares hj
    | second => exact absurd rfl hne

end Independent

/-! ## In company and alone -/

namespace RegisterFile

variable {program : List Instruction} {f g : RegisterFile}

/-- Two files hold the same in everything that a program looks at. -/
structure Alike (program : List Instruction) (f g : RegisterFile) : Prop where
  get : ∀ r ∈ registersOf program, f.general.get r = g.general.get r
  status : SameOn (fieldsOf program) f.status g.status

theorem Alike.refl (program : List Instruction) (f : RegisterFile) : Alike program f f :=
  ⟨fun _ _ => rfl, .refl _ _⟩

theorem Alike.sameOn_reads (h : Alike program f g) {i : Instruction} (hi : i ∈ program) :
    SameOn i.op.reads f.status g.status :=
  h.status.mono fun _ hf => List.mem_flatMap.mpr ⟨i, hi, hf⟩

theorem Alike.operands (h : Alike program f g) {i : Instruction} (hi : i ∈ program) :
    (f.operands i.target i.source).Matches (fieldsOf program) (g.operands i.target i.source) where
  target := h.get _ (List.mem_flatMap.mpr ⟨i, hi, List.mem_cons_self⟩)
  operand := h.get _ (List.mem_flatMap.mpr ⟨i, hi, List.mem_cons_of_mem _ List.mem_cons_self⟩)
  status := h.status

/-- **An own instruction** answers alike on files that are alike, and leaves them so. -/
theorem Alike.act (h : Alike program f g) {i : Instruction} (hi : i ∈ program) :
    (i.act f).reply = (i.act g).reply ∧ Alike program (i.act f).state (i.act g).state := by
  have hbefore := h.operands hi
  have hreply : ((f.operands i.target i.source).apply i.op).result =
      ((g.operands i.target i.source).apply i.op).result :=
    Operands.result_apply_congr hbefore.operand
  refine ⟨hreply, ?_⟩
  rw [Instruction.state_act, Instruction.state_act]
  cases hresult : ((f.operands i.target i.source).apply i.op).result with
  | error fault =>
    have hresult' := hreply.symm.trans hresult
    rw [state_execute_of_error hresult, state_execute_of_error hresult']
    exact h
  | ok =>
    have hresult' := hreply.symm.trans hresult
    have hafter := hbefore.apply (h.sameOn_reads hi) hresult
    constructor
    · intro r hr
      rw [get_execute hresult, get_execute hresult', hafter.target, hafter.operand, h.get r hr]
    · rw [status_execute, status_execute]
      exact hafter.status.mono (List.subset_append_right _ _)

/-- **An instruction of the other program** makes no difference. -/
theorem Alike.act_left (h : Alike program f g) {j : Instruction} (hj : j.Spares program) :
    Alike program (j.act f).state g := by
  constructor
  · intro r hr
    rw [get_act_of_not_writes (hj.1 r hr) f]
    exact h.get r hr
  · rw [Instruction.state_act, status_execute]
    exact (Operands.sameOn_apply_left _ hj.2).trans h.status

/-- **A program in company** answers as it does alone, and the two runs leave files that are alike
to it. -/
theorem Alike.run_part (k : Side) {merged : List (Side × Instruction)}
    (hown : ∀ i, (k, i) ∈ merged → i ∈ program)
    (hother : ∀ l j, l ≠ k → (l, j) ∈ merged → j.Spares program) (h : Alike program f g) :
    k.part (Session.run Instruction.actFor Turn.reply merged f).seen =
        (Session.run Instruction.act Turn.reply (k.part merged) g).seen ∧
      Alike program (Session.run Instruction.actFor Turn.reply merged f).last
        (Session.run Instruction.act Turn.reply (k.part merged) g).last := by
  induction merged generalizing f g with
  | nil => exact ⟨rfl, h⟩
  | cons entry rest ih =>
    obtain ⟨l, i⟩ := entry
    have hown' : ∀ i, (k, i) ∈ rest → i ∈ program :=
      fun i hi => hown i (List.mem_cons_of_mem _ hi)
    have hother' : ∀ l j, l ≠ k → (l, j) ∈ rest → j.Spares program :=
      fun l j hl hj => hother l j hl (List.mem_cons_of_mem _ hj)
    rw [Session.run_cons]
    by_cases hside : l = k
    · -- The instruction is the program's own, and both runs take it.
      subst hside
      obtain ⟨hreply, hstate⟩ := h.act (hown i List.mem_cons_self)
      obtain ⟨hseen, hlast⟩ := ih hown' hother' hstate
      rw [Side.part_cons_self, Session.run_cons]
      refine ⟨?_, hlast⟩
      rw [← hreply, ← hseen]
      exact Side.part_cons_self l _ _
    · -- It belongs to the other program, and the run alone stands still.
      obtain ⟨hseen, hlast⟩ := ih hown' hother'
        (h.act_left (hother l i hside List.mem_cons_self))
      rw [Side.part_cons_of_ne hside]
      exact ⟨(Side.part_cons_of_ne hside _ _).trans hseen, hlast⟩

/-! ## Any two orders -/

variable {first second : List Instruction} {merged : List (Side × Instruction)}

/-- Each of two independent programs runs in company as it does alone. -/
theorem run_alone (h : Independent first second) (hmerged : Side.IsMerge first second merged)
    (k : Side) (f : RegisterFile) :
    k.part (Session.run Instruction.actFor Turn.reply merged f).seen =
        (Session.run Instruction.act Turn.reply (k.list first second) f).seen ∧
      Alike (k.list first second) (Session.run Instruction.actFor Turn.reply merged f).last
        (Session.run Instruction.act Turn.reply (k.list first second) f).last := by
  have hrun := (Alike.refl (k.list first second) f).run_part k (fun _ => hmerged.mem)
    (fun _ _ hl hj => h.spares_list hl (hmerged.mem hj))
  rw [hmerged.part_eq] at hrun
  exact hrun

/-- A register that neither program names is left alone. -/
theorem get_run_of_not_named (hmerged : Side.IsMerge first second merged) {r : Register}
    (hr : ∀ k : Side, r ∉ registersOf (k.list first second)) (f : RegisterFile) :
    (Session.run Instruction.actFor Turn.reply merged f).last.general.get r = f.general.get r := by
  refine Session.last_of_invariant
    (P := fun g : RegisterFile => g.general.get r = f.general.get r) ?_ rfl
  rintro ⟨k, i⟩ hi g hg
  have hspared : ¬ i.Writes r := fun hwrites => hr k (List.mem_flatMap.mpr
    ⟨i, hmerged.mem hi, Instruction.mem_registers_of_writes hwrites⟩)
  exact (get_act_of_not_writes hspared g).trans hg

theorem sameFrame_run_actFor (merged : List (Side × Instruction)) (f : RegisterFile) :
    f.SameFrame (Session.run Instruction.actFor Turn.reply merged f).last := by
  refine Session.last_of_invariant (P := f.SameFrame) ?_ (.refl f)
  rintro ⟨k, i⟩ _ g hg
  exact hg.trans (sameFrame_execute g i.op i.target i.source)

/-- **Independent programs commute.** Two programs that name no register in common, neither of which
writes the carry if the other adds or subtracts, may be merged in any order, a failing division
being passed over: every instruction answers the same, the four general registers are left the same,
and so is all the rest of the file but for the condition flags. -/
theorem independent_programs_commute (h : Independent first second)
    {merged merged' : List (Side × Instruction)} (hmerged : Side.IsMerge first second merged)
    (hmerged' : Side.IsMerge first second merged') (f : RegisterFile) :
    let ran := Session.run Instruction.actFor Turn.reply merged f
    let ran' := Session.run Instruction.actFor Turn.reply merged' f
    (∀ k : Side, k.part ran.seen = k.part ran'.seen) ∧
      ran.last.general = ran'.last.general ∧ ran.last.SameFrame ran'.last := by
  intro ran ran'
  have halone := fun k => run_alone h hmerged k f
  have halone' := fun k => run_alone h hmerged' k f
  refine ⟨?_, ?_, ?_⟩
  · intro k
    exact (halone k).1.trans (halone' k).1.symm
  · apply GeneralRegisters.ext_get
    intro r
    by_cases hnamed : ∃ k : Side, r ∈ registersOf (k.list first second)
    · obtain ⟨k, hr⟩ := hnamed
      exact ((halone k).2.get r hr).trans ((halone' k).2.get r hr).symm
    · have hr : ∀ k : Side, r ∉ registersOf (k.list first second) :=
        fun k hk => hnamed ⟨k, hk⟩
      exact (get_run_of_not_named hmerged hr f).trans (get_run_of_not_named hmerged' hr f).symm
  · exact (sameFrame_run_actFor merged f).symm.trans (sameFrame_run_actFor merged' f)

/-- A sum and a refused division on two registers, a product and a quotient on the other two: one
after the other or by turns, they leave the same registers and not the same flags. -/
theorem independent_programs_commute_by_turns :
    let first : List Instruction := [⟨.add, .r0, .r1⟩, ⟨.divide, .r0, .r1⟩]
    let second : List Instruction := [⟨.multiply, .r2, .r3⟩, ⟨.divide, .r2, .r3⟩]
    let merged : List (Side × Instruction) := [(.second, ⟨.multiply, .r2, .r3⟩),
      (.second, ⟨.divide, .r2, .r3⟩), (.first, ⟨.add, .r0, .r1⟩),
      (.first, ⟨.divide, .r0, .r1⟩)]
    let merged' : List (Side × Instruction) := [(.first, ⟨.add, .r0, .r1⟩),
      (.second, ⟨.multiply, .r2, .r3⟩), (.first, ⟨.divide, .r0, .r1⟩),
      (.second, ⟨.divide, .r2, .r3⟩)]
    let file : RegisterFile := { initial with general := ⟨-5#64, 0#64, 7#64, 2#64⟩ }
    let ran := Session.run Instruction.actFor Turn.reply merged file
    let ran' := Session.run Instruction.actFor Turn.reply merged' file
    Independent first second ∧ Side.IsMerge first second merged ∧
      Side.IsMerge first second merged' ∧ ran.last.general = ran'.last.general ∧
        ran.last.status ≠ ran'.last.status := by
  intro first second merged merged' file ran ran'
  have hindependent : Independent first second := ⟨by decide, by decide, by decide⟩
  have hmerged : Side.IsMerge first second merged := by decide
  have hmerged' : Side.IsMerge first second merged' := by decide
  refine ⟨hindependent, hmerged, hmerged', ?_, by decide⟩
  exact (independent_programs_commute hindependent hmerged hmerged' file).2.1

end RegisterFile

end Datapath
