import Datapath.Alu.Unit
import Datapath.Stack.Basic
import Datapath.Status.Text

/-!
# The register file

Every register of the machine: the four general registers that the arithmetic unit works on, the
banked pointer and counter registers with their offsets, indexes and steps, the program counter, the
status word, and the base and pointer of the stack.

The status word decides which registers an instruction means. One of its fields selects a general
register, one the bank of the pointer group (pointer, offset, index, index step), one the bank of
the counter group (counter, counter step). Running an operation reads copies of two general
registers and writes back only if it succeeds; when target and source are one register the target's
value stays.
-/

set_option autoImplicit false

namespace Datapath

/-! ## Groups of registers -/

/-- Two registers of which one is active at a time. -/
structure Banked (α : Type) where
  set0 : α
  set1 : α
  deriving DecidableEq, Repr

namespace Banked

variable {α : Type}

/-- The same value in both banks. -/
def both (v : α) : Banked α := ⟨v, v⟩

/-- The register of a bank. -/
def get (p : Banked α) : Bank → α
  | .set0 => p.set0
  | .set1 => p.set1

/-- The register of a bank replaced. -/
def put (p : Banked α) (b : Bank) (v : α) : Banked α :=
  match b with
  | .set0 => { p with set0 := v }
  | .set1 => { p with set1 := v }

/-- Both registers, first bank first. -/
def toList (p : Banked α) : List α := [p.set0, p.set1]

/-- A bank holds what was last put there. -/
@[simp] theorem get_put (p : Banked α) (b : Bank) (v : α) : (p.put b v).get b = v := by
  cases b <;> rfl

/-- The other bank is left alone. -/
theorem get_put_of_ne (p : Banked α) {b c : Bank} (v : α) (h : b ≠ c) :
    (p.put b v).get c = p.get c := by
  cases b <;> cases c <;> first | rfl | exact absurd rfl h

end Banked

/-- The four general registers. -/
structure GeneralRegisters where
  r0 : Cell
  r1 : Cell
  r2 : Cell
  r3 : Cell
  deriving DecidableEq, Repr

namespace GeneralRegisters

/-- The cell of a register. -/
def get (g : GeneralRegisters) : Register → Cell
  | .r0 => g.r0
  | .r1 => g.r1
  | .r2 => g.r2
  | .r3 => g.r3

/-- The cell of a register replaced. -/
def put (g : GeneralRegisters) (r : Register) (c : Cell) : GeneralRegisters :=
  match r with
  | .r0 => { g with r0 := c }
  | .r1 => { g with r1 := c }
  | .r2 => { g with r2 := c }
  | .r3 => { g with r3 := c }

/-- The four cells in order. -/
def toList (g : GeneralRegisters) : List Cell := [g.r0, g.r1, g.r2, g.r3]

/-- A register holds what was last put there. -/
@[simp] theorem get_put (g : GeneralRegisters) (r : Register) (c : Cell) :
    (g.put r c).get r = c := by
  cases r <;> rfl

/-- Every other register is left alone. -/
theorem get_put_of_ne (g : GeneralRegisters) {r s : Register} (c : Cell) (h : r ≠ s) :
    (g.put r c).get s = g.get s := by
  cases r <;> cases s <;> first | rfl | exact absurd rfl h

/-- The cells by name are all there is. -/
theorem ext_get {g h : GeneralRegisters} (heq : ∀ r, g.get r = h.get r) : g = h := by
  obtain ⟨g0, g1, g2, g3⟩ := g
  obtain ⟨h0, h1, h2, h3⟩ := h
  obtain rfl : g0 = h0 := heq .r0
  obtain rfl : g1 = h1 := heq .r1
  obtain rfl : g2 = h2 := heq .r2
  obtain rfl : g3 = h3 := heq .r3
  rfl

end GeneralRegisters

/-- The six kinds of banked register. -/
inductive Group
  | pointers | offsets | indexes | indexSteps | counters | counterSteps
  deriving DecidableEq, Repr

namespace Group

/-- The width of the registers of a group. -/
def width : Group → Width
  | pointers | counters => .w32
  | offsets | indexes | indexSteps | counterSteps => .w16

/-- What a register of a group holds. -/
abbrev Value (g : Group) : Type := BitVec g.width.bits

/-- The active bank of a group: the counters have a bank bit of their own, all else goes with the
pointers. -/
def bank (st : StatusWord) : Group → Bank
  | counters | counterSteps => st.counterBank
  | pointers | offsets | indexes | indexSteps => st.pointerBank

end Group

/-! ## The file -/

/-- Every register of the machine. -/
structure RegisterFile where
  general : GeneralRegisters
  pointers : Banked (BitVec 32)
  offsets : Banked (BitVec 16)
  indexes : Banked (BitVec 16)
  indexSteps : Banked (BitVec 16)
  counters : Banked (BitVec 32)
  counterSteps : Banked (BitVec 16)
  /-- The program counter. -/
  pc : BitVec 32
  status : StatusWord
  /-- Address of the stack's memory. -/
  stackBase : BitVec 32
  /-- Where in its memory a stack starts. -/
  stackPointer : BitVec 16
  deriving DecidableEq, Repr

namespace RegisterFile

/-- Size in bytes of the memory that the stack pointer addresses. -/
def stackSize : Nat := 0x10000

/-- Every register zero but for the stack, which lies at the end of the address space and starts at
the top of its memory. -/
def initial : RegisterFile where
  general := ⟨0#64, 0#64, 0#64, 0#64⟩
  pointers := .both 0#32
  offsets := .both 0#16
  indexes := .both 0#16
  indexSteps := .both 0#16
  counters := .both 0#32
  counterSteps := .both 0#16
  pc := 0#32
  status := .clear
  stackBase := 0xFFFE0000#32
  stackPointer := 0xFFFF#16

/-! ## Registers by name -/

/-- A general register replaced. -/
def putGeneral (f : RegisterFile) (r : Register) (c : Cell) : RegisterFile :=
  { f with general := f.general.put r c }

/-- The general register that the status word selects. -/
def selected (f : RegisterFile) : Cell :=
  f.general.get f.status.register

/-- Both registers of a group. -/
def group (f : RegisterFile) : (g : Group) → Banked g.Value
  | .pointers => f.pointers
  | .offsets => f.offsets
  | .indexes => f.indexes
  | .indexSteps => f.indexSteps
  | .counters => f.counters
  | .counterSteps => f.counterSteps

/-- Both registers of a group replaced. -/
def putGroup (f : RegisterFile) : (g : Group) → Banked g.Value → RegisterFile
  | .pointers, p => { f with pointers := p }
  | .offsets, p => { f with offsets := p }
  | .indexes, p => { f with indexes := p }
  | .indexSteps, p => { f with indexSteps := p }
  | .counters, p => { f with counters := p }
  | .counterSteps, p => { f with counterSteps := p }

/-- The register of a group that the status word makes active. -/
def active (f : RegisterFile) (g : Group) : g.Value :=
  (f.group g).get (g.bank f.status)

/-- The active register of a group replaced. -/
def putActive (f : RegisterFile) (g : Group) (v : g.Value) : RegisterFile :=
  f.putGroup g ((f.group g).put (g.bank f.status) v)

/-- The program counter moved on, round the end of the address space if need be. -/
def advance (f : RegisterFile) (n : BitVec 32) : RegisterFile :=
  { f with pc := f.pc + n }

/-! ## Operations -/

/-- Runs an operation on two general registers against the file's status word. -/
def execute (f : RegisterFile) (op : AluOp) (target source : Register) :
    Outcome RegisterFile ArithmeticFault Unit :=
  let before : Operands := ⟨f.general.get target, f.general.get source, f.status⟩
  let run := before.apply op
  let after := run.state
  let file :=
    match run.result with
    | .error _ => { f with status := after.status }
    | .ok () =>
      -- The target is written last, so that it stays when both names are one register.
      let general := if op.writesOperand then f.general.put source after.operand else f.general
      { f with general := general.put target after.target, status := after.status }
  { state := file
    result := run.result
    events := .dispatched op target source before.target before.operand :: run.events }

/-- A stack over a buffer that starts at the file's stack pointer. -/
def stackOver (f : RegisterFile) (memory : Buffer) : Except StackFault Stack :=
  Stack.ofBuffer memory f.stackPointer

/-! ## Text -/

/-- A list in trace form. -/
def traceList (items : List String) : String :=
  "[" ++ ", ".intercalate items ++ "]"

/-- Both registers of a pair in trace form. -/
def tracePair {n : Nat} (p : Banked (BitVec n)) : String :=
  traceList (p.toList.map fun v => Numeral.decimal v.toNat)

/-- The trace form of the file: every register under its name, in one line. -/
def trace (f : RegisterFile) : String :=
  traceRecord "RegisterFile"
    [("general", traceList (f.general.toList.map Cell.trace)),
      ("pointers", tracePair f.pointers),
      ("offsets", tracePair f.offsets),
      ("indexes", tracePair f.indexes),
      ("index_steps", tracePair f.indexSteps),
      ("counters", tracePair f.counters),
      ("counter_steps", tracePair f.counterSteps),
      ("pc", Numeral.decimal f.pc.toNat),
      ("status", f.status.trace),
      ("stack_base", Numeral.decimal f.stackBase.toNat),
      ("stack_pointer", Numeral.decimal f.stackPointer.toNat)]

end RegisterFile

end Datapath
