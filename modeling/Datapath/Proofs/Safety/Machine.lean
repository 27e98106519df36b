import Datapath.Session.Machine
import Datapath.Proofs.Safety.Stack
import Datapath.Proofs.Safety.Unit

/-!
# The machine never traps

The register file over primitives that have a domain. Registers of a kind lie in a row and are found
by an index. Where an instruction does not name the register the index is cut out of the status word,
whose bits are whatever the run so far has left there; but a field of two bits has a code below four
and a field of one bit a code below two, and as many registers are in the rows.

A session asks for the status word, for cells, for the active registers, runs operations, and opens
stacks, in any mixture. None of its steps needs an invariant: every file and every memory is one that
the machine can have.
-/

set_option autoImplicit false

namespace Datapath

/-! ## Steps on the status word -/

namespace StatusWord

def checkedSelect (w : StatusWord) (c : Choice) (value : Byte) :
    Checked (Outcome StatusWord SelectorFault Unit) :=
  match (Selector.ofByte value : Except SelectorFault c.field.Value) with
  | .ok v => do .ok (.done (← w.checkedWrite c.field v) ())
  | .error fault => .ok (.refuse w fault (.refused fault))

@[simp] theorem checkedSelect_eq (w : StatusWord) (c : Choice) (value : Byte) :
    w.checkedSelect c value = .ok (w.select c value) := by
  rw [checkedSelect, select]
  cases (Selector.ofByte value : Except SelectorFault c.field.Value) with
  | ok v => simp
  | error fault => rfl

/-- The trace form, after every field was read. -/
def checkedTrace (w : StatusWord) : Checked String := do
  Field.all.forM fun f => do
    let _ ← w.checkedRead f
    .ok ()
  .ok w.trace

@[simp] theorem checkedTrace_eq (w : StatusWord) : w.checkedTrace = .ok w.trace := by
  simp [checkedTrace, Field.all]

def checkedAct (step : Step) (w : StatusWord) : Checked (Turn StatusWord Reply) :=
  match step with
  | .replace bits => .ok (.change ⟨bits⟩)
  | .reset => .ok (.change .clear)
  | .bits => .ok (.answer w (.unsigned .w32 w.bits))
  | .trace => do .ok (.answer w (.text (← w.checkedTrace)))
  | .save => .ok (.answer w (.text (Snapshot.save w)))
  | .flag f => do .ok (.answer w (.truth (← w.checkedFlag f)))
  | .assign f on => do .ok (.change (← w.checkedAssign f on))
  | .read f => do .ok (.answer w (fieldReply f (← w.checkedRead f)))
  | .write f v => do .ok (.change (← w.checkedWrite f v))
  | .select c value => do .ok (.ofUnit .status (← w.checkedSelect c value))
  | .pointersInFirstBank => do
    .ok (.answer w (.truth ((← w.checkedRead .pointerBank) == .set0)))
  | .countersInFirstBank => do
    .ok (.answer w (.truth ((← w.checkedRead .counterBank) == .set0)))

@[simp] theorem checkedAct_eq (step : Step) (w : StatusWord) :
    checkedAct step w = .ok (act step w) := by
  cases step <;> simp [checkedAct, act, pointerBank, counterBank]

end StatusWord

/-! ## Registers in a row -/

namespace RegisterFile

def checkedGeneral (f : RegisterFile) (r : Register) : Checked Cell :=
  Checked.element f.general.toList (Coded.code r).toNat

@[simp] theorem checkedGeneral_eq (f : RegisterFile) (r : Register) :
    f.checkedGeneral r = .ok (f.general.get r) := by
  cases r <;> exact Checked.element_of rfl

def checkedPutGeneral (f : RegisterFile) (r : Register) (c : Cell) : Checked RegisterFile := do
  Checked.place f.general.toList.length (Coded.code r).toNat
  .ok (f.putGeneral r c)

@[simp] theorem checkedPutGeneral_eq (f : RegisterFile) (r : Register) (c : Cell) :
    f.checkedPutGeneral r c = .ok (f.putGeneral r c) := by
  cases r <;> rfl

def checkedSelected (f : RegisterFile) : Checked Cell := do
  f.checkedGeneral (← f.status.checkedRead .register)

@[simp] theorem checkedSelected_eq (f : RegisterFile) :
    f.checkedSelected = .ok f.selected := by
  simp [checkedSelected, selected, StatusWord.register]

def checkedPutSelected (f : RegisterFile) (c : Cell) : Checked RegisterFile := do
  f.checkedPutGeneral (← f.status.checkedRead .register) c

@[simp] theorem checkedPutSelected_eq (f : RegisterFile) (c : Cell) :
    f.checkedPutSelected c = .ok (f.putGeneral f.status.register c) := by
  simp [checkedPutSelected, StatusWord.register]

/-- The active bank of a group, read from the bit that the group goes with. -/
def checkedBank (f : RegisterFile) : Group → Checked Bank
  | .counters | .counterSteps => f.status.checkedRead .counterBank
  | .pointers | .offsets | .indexes | .indexSteps => f.status.checkedRead .pointerBank

@[simp] theorem checkedBank_eq (f : RegisterFile) (g : Group) :
    f.checkedBank g = .ok (g.bank f.status) := by
  cases g <;> simp [checkedBank, Group.bank, StatusWord.counterBank, StatusWord.pointerBank]

def checkedActive (f : RegisterFile) (g : Group) : Checked g.Value := do
  let b ← f.checkedBank g
  Checked.element (f.group g).toList (Coded.code b).toNat

@[simp] theorem checkedActive_eq (f : RegisterFile) (g : Group) :
    f.checkedActive g = .ok (f.active g) := by
  have helement : ∀ b : Bank, Checked.element (f.group g).toList (Coded.code b).toNat =
      .ok ((f.group g).get b) := by
    intro b
    cases b <;> exact Checked.element_of rfl
  rw [checkedActive, checkedBank_eq, Checked.ok_bind, helement, active]

def checkedPutBank (f : RegisterFile) (g : Group) (b : Bank) (v : g.Value) :
    Checked RegisterFile := do
  Checked.place (f.group g).toList.length (Coded.code b).toNat
  .ok (f.putGroup g ((f.group g).put b v))

@[simp] theorem checkedPutBank_eq (f : RegisterFile) (g : Group) (b : Bank) (v : g.Value) :
    f.checkedPutBank g b v = .ok (f.putGroup g ((f.group g).put b v)) := by
  cases b <;> rfl

def checkedPutActive (f : RegisterFile) (g : Group) (v : g.Value) : Checked RegisterFile := do
  f.checkedPutBank g (← f.checkedBank g) v

@[simp] theorem checkedPutActive_eq (f : RegisterFile) (g : Group) (v : g.Value) :
    f.checkedPutActive g v = .ok (f.putActive g v) := by
  simp [checkedPutActive, putActive]

/-! ## Operations -/

def checkedExecute (f : RegisterFile) (op : AluOp) (target source : Register) :
    Checked (Outcome RegisterFile ArithmeticFault Unit) := do
  let before : Operands := ⟨← f.checkedGeneral target, ← f.checkedGeneral source, f.status⟩
  let run ← before.checkedApply op
  let after := run.state
  let worked := { f with status := after.status }
  let file ←
    match run.result with
    | .error _ => .ok worked
    | .ok () => do
      let written ←
        if op.writesOperand then worked.checkedPutGeneral source after.operand else .ok worked
      written.checkedPutGeneral target after.target
  .ok
    { state := file
      result := run.result
      events := .dispatched op target source before.target before.operand :: run.events }

@[simp] theorem checkedExecute_eq (f : RegisterFile) (op : AluOp) (target source : Register) :
    f.checkedExecute op target source = .ok (f.execute op target source) := by
  simp only [checkedExecute, checkedGeneral_eq, Operands.checkedApply_eq, Checked.ok_bind, execute]
  cases (Operands.apply op ⟨f.general.get target, f.general.get source, f.status⟩).result with
  | error fault => rfl
  | ok done => by_cases h : op.writesOperand <;> simp [h, putGeneral]

/-- The trace form, after every field of the status word was read. -/
def checkedTrace (f : RegisterFile) : Checked String := do
  let _ ← f.status.checkedTrace
  .ok f.trace

@[simp] theorem checkedTrace_eq (f : RegisterFile) : f.checkedTrace = .ok f.trace := by
  simp [checkedTrace]

end RegisterFile

/-! ## Sessions -/

namespace Machine

def checkedChange (m : Machine) (file : Checked RegisterFile) : Checked (Turn Machine Answer) := do
  .ok (m.change (← file))

def checkedOpenStack (m : Machine) (steps : List Stack.Step) : Checked (Turn Machine Answer) := do
  match ← Stack.checkedSession m.memory m.file.stackPointer steps with
  | .error fault => .ok (m.answer (.fault (.stack fault)))
  | .ok session =>
    .ok ⟨{ m with memory := session.last.memory }, .stack session.seen, session.events⟩

@[simp] theorem checkedOpenStack_eq (m : Machine) (steps : List Stack.Step) :
    m.checkedOpenStack steps = .ok (m.openStack steps) := by
  rw [checkedOpenStack, Stack.checkedSession_eq, openStack, RegisterFile.stackOver]
  cases Stack.ofBuffer m.memory m.file.stackPointer <;> rfl

/-- A step on a general register masks, cuts and widens the cell, and formats it: nothing in it has
a domain but the place of the register. -/
def checkedAct (step : Step) (m : Machine) : Checked (Turn Machine Answer) :=
  let f := m.file
  match step with
  | .set g b v => m.checkedChange (f.checkedPutBank g b v)
  | .status step => do
    .ok (m.within (fun w => { f with status := w }) (← StatusWord.checkedAct step f.status))
  | .general r step => do
    let turn := Cell.act step (← f.checkedGeneral r)
    let file ← f.checkedPutGeneral r turn.state
    .ok (m.within (fun _ => file) turn)
  | .selected step => do
    let turn := Cell.act step (← f.checkedSelected)
    let file ← f.checkedPutSelected turn.state
    .ok (m.within (fun _ => file) turn)
  | .getGeneral r => do .ok (m.answer (.unsigned .w64 (← f.checkedGeneral r)))
  | .getSelected => do .ok (m.answer (.unsigned .w64 (← f.checkedSelected)))
  | .execute op target source => do
    .ok (m.within id (.ofUnit .arithmetic (← f.checkedExecute op target source)))
  | .active g => do .ok (m.answer (.unsigned g.width (← f.checkedActive g)))
  | .setPointer v => m.checkedChange (f.checkedPutActive .pointers v)
  | .setCounter v => m.checkedChange (f.checkedPutActive .counters v)
  | .stack steps => m.checkedOpenStack steps
  | .trace => do .ok (m.answer (.text (← f.checkedTrace)))
  -- The rest copies, compares or loads whole values, or adds round the end of the address space.
  | other => .ok (act other m)

/-- **No step of a session traps**, on whatever file and memory. -/
theorem checkedAct_eq (step : Step) (m : Machine) : checkedAct step m = .ok (act step m) := by
  cases step with
  | setPointer v =>
    have hput := m.file.checkedPutActive_eq .pointers v
    simp [checkedAct, act, checkedChange, hput]
  | setCounter v =>
    have hput := m.file.checkedPutActive_eq .counters v
    simp [checkedAct, act, checkedChange, hput]
  | _ => simp [checkedAct, act, checkedChange, within]

/-- **No session on the machine traps.** -/
theorem checkedRun_eq (steps : List Step) (m : Machine) :
    Session.checkedRun checkedAct .ok steps m = .ok (Session.run act id steps m) :=
  Session.checkedRun_eq (P := fun _ => True) (fun step m _ => checkedAct_eq step m)
    (fun _ _ => rfl) (fun _ _ _ => trivial) steps trivial

end Machine

end Datapath
