import Datapath.Session.Cell
import Datapath.Session.Stack
import Datapath.Session.Status

/-!
# Sessions on the whole machine

The machine under a session is a register file, the memory that its stacks use, and a copy of the
file that was put aside. A step works on one register, runs an operation, opens a stack for a session
of its own, or saves and loads the file.

A stack opened here starts at the file's stack pointer with nothing pushed and leaves only its memory
behind: the file's stack pointer does not follow it.
-/

set_option autoImplicit false

namespace Datapath

/-- What a session on the whole machine works on. -/
structure Machine where
  file : RegisterFile
  /-- The memory that stacks are opened over. -/
  memory : Buffer
  /-- The file that was put aside. -/
  saved : RegisterFile

namespace Machine

/-- A new file and cleared memory of a size. -/
def initial (size : Nat) : Machine :=
  ⟨.initial, .filled size 0#8, .initial⟩

/-- A step on the machine. -/
inductive Step
  /-- Store into one register of a group. -/
  | set (g : Group) (b : Bank) (v : g.Value)
  | setPc (v : BitVec 32)
  | setStackBase (v : BitVec 32)
  | setStackPointer (v : BitVec 16)
  /-- A step on the status word. -/
  | status (step : StatusWord.Step)
  /-- Ask for the pattern of the status word. -/
  | snapshot
  /-- A step on a general register. -/
  | general (r : Register) (step : Cell.Step)
  /-- A step on the general register that the status word selects. -/
  | selected (step : Cell.Step)
  | getGeneral (r : Register)
  | getSelected
  | execute (op : AluOp) (target source : Register)
  /-- Ask for the active register of a group. -/
  | active (g : Group)
  /-- Store into the active pointer register. -/
  | setPointer (v : BitVec 32)
  /-- Store into the active counter register. -/
  | setCounter (v : BitVec 32)
  /-- Move the program counter on and ask where it stood. -/
  | advance (n : BitVec 32)
  | reset
  /-- Open a stack for a session of its own. -/
  | stack (steps : List Stack.Step)
  | trace
  /-- Replace the file by the one that a text spells. -/
  | load (text : String)
  /-- Put a copy of the file aside. -/
  | keep
  /-- Take the copy back. -/
  | restore
  /-- Ask whether the file is the copy. -/
  | isKept
  /-- Ask whether the file is a new one. -/
  | isInitial

/-- What a step on the machine answers. -/
inductive Answer
  | plain (reply : Reply)
  /-- How a stack that was opened stood after each step of its session. -/
  | stack (standings : List Stack.Standing)
  deriving DecidableEq, Repr

/-- A step that changes the file and has nothing to say. -/
def change (m : Machine) (file : RegisterFile) : Turn Machine Answer :=
  .answer { m with file := file } (.plain .done)

/-- A step that leaves the machine and answers a question about it. -/
def answer (m : Machine) (reply : Reply) : Turn Machine Answer :=
  .answer m (.plain reply)

/-- A turn on a part of the file. -/
def within {σ : Type} (m : Machine) (put : σ → RegisterFile) (t : Turn σ Reply) :
    Turn Machine Answer :=
  ⟨{ m with file := put t.state }, .plain t.reply, t.events⟩

/-- Opens a stack over the memory for a session of its own. -/
def openStack (m : Machine) (steps : List Stack.Step) : Turn Machine Answer :=
  match m.file.stackOver m.memory with
  | .error fault => m.answer (.fault (.stack fault))
  | .ok opened =>
    let session := Session.run Stack.act Stack.standing steps opened
    ⟨{ m with memory := session.last.memory }, .stack session.seen, session.events⟩

/-- Takes one step. -/
def act (step : Step) (m : Machine) : Turn Machine Answer :=
  let f := m.file
  match step with
  | .set g b v => m.change (f.putGroup g ((f.group g).put b v))
  | .setPc v => m.change { f with pc := v }
  | .setStackBase v => m.change { f with stackBase := v }
  | .setStackPointer v => m.change { f with stackPointer := v }
  | .status step => m.within (fun w => { f with status := w }) (StatusWord.act step f.status)
  | .snapshot => m.answer (.unsigned .w32 f.status.bits)
  | .general r step => m.within (f.putGeneral r) (Cell.act step (f.general.get r))
  | .selected step => m.within (f.putGeneral f.status.register) (Cell.act step f.selected)
  | .getGeneral r => m.answer (.unsigned .w64 (f.general.get r))
  | .getSelected => m.answer (.unsigned .w64 f.selected)
  | .execute op target source => m.within id (.ofUnit .arithmetic (f.execute op target source))
  | .active g => m.answer (.unsigned g.width (f.active g))
  | .setPointer v => m.change (f.putActive .pointers v)
  | .setCounter v => m.change (f.putActive .counters v)
  | .advance n => .answer { m with file := f.advance n } (.plain (.unsigned .w32 f.pc))
  | .reset => m.change .initial
  | .stack steps => m.openStack steps
  | .trace => m.answer (.text f.trace)
  | .load text =>
    match (Snapshot.load? text : Option RegisterFile) with
    | some file => m.change file
    | none => m.answer .unreadable
  | .keep => .answer { m with saved := f } (.plain .done)
  | .restore => m.change m.saved
  | .isKept => m.answer (.truth (f == m.saved))
  | .isInitial => m.answer (.truth (f == .initial))

end Machine

end Datapath
