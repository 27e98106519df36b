import Datapath.Proofs.Lifo
import Datapath.Session.Machine

/-!
# A stack does not show old memory

What a stack session shows is what the bounded list shows that starts empty, and in that list there
is no memory. So two sessions of the same pushes and pops from the same pointer look alike over any
two memories that reach beyond it. On the whole machine this means that neither the sessions before
nor anything else that ran leaves a trace in a session but through the file's stack pointer.
-/

set_option autoImplicit false

namespace Datapath

open Stack (Transfer standing)

/-! ## One session -/

/-- The session of a list that starts empty and has room down from this pointer. -/
def Lifo.session (start : BitVec 16) (transfers : List Transfer) : Session Lifo Stack.Standing :=
  Session.run Lifo.act Lifo.standing transfers (.empty (start.toNat + 1))

/-- What a session over some memory shows, told without the memory. -/
theorem Stack.run_eq_session {memory : Buffer} {start : BitVec 16} (h : start.toNat < memory.size)
    (transfers : List Transfer) :
    let session := Session.run Stack.act standing (transfers.map Transfer.step)
      ⟨memory, start.toNat, start.toNat⟩
    session.seen = (Lifo.session start transfers).seen ∧
      session.events = (Lifo.session start transfers).events := by
  obtain ⟨hseen, hevents, -⟩ := (represents_ofBuffer memory start h).run transfers
  exact ⟨hseen, hevents⟩

/-! ## Sessions on the machine -/

namespace Machine

variable {m : Machine}

theorem openStack_of_lt (h : m.file.stackPointer.toNat < m.memory.size) (steps : List Stack.Step) :
    m.openStack steps =
      let session := Session.run Stack.act standing steps
        ⟨m.memory, m.file.stackPointer.toNat, m.file.stackPointer.toNat⟩
      ⟨{ m with memory := session.last.memory }, .stack session.seen, session.events⟩ := by
  have hopened := Stack.ofBuffer_eq_ok_iff.mpr ⟨h, rfl⟩
  rw [openStack, RegisterFile.stackOver, hopened]

theorem openStack_of_le (h : m.memory.size ≤ m.file.stackPointer.toNat) (steps : List Stack.Step) :
    m.openStack steps =
      m.answer (.fault (.stack (.pointerOutOfRange m.file.stackPointer m.memory.size))) := by
  rw [openStack, RegisterFile.stackOver, Stack.ofBuffer, if_neg (Nat.not_lt.mpr h)]

/-- A stack session changes bytes of the memory, but neither its size nor anything else. -/
theorem size_memory_openStack (m : Machine) (steps : List Stack.Step) :
    (m.openStack steps).state.memory.size = m.memory.size := by
  by_cases h : m.file.stackPointer.toNat < m.memory.size
  · rw [openStack_of_lt h]
    exact ((Stack.confined_ofBuffer h).run steps).size_eq
  · rw [openStack_of_le (Nat.le_of_not_lt h)]
    rfl

theorem size_memory_act (step : Step) (m : Machine) :
    (act step m).state.memory.size = m.memory.size := by
  cases step with
  | stack steps => exact size_memory_openStack m steps
  | load text =>
    rw [act]
    cases (Snapshot.load? text : Option RegisterFile) with
    | none => rfl
    | some file => rfl
  -- No other step has the memory in its hands.
  | _ => rfl

theorem size_memory_run {β : Type} (observe : Turn Machine Answer → β) (steps : List Step)
    (m : Machine) : (Session.run act observe steps m).last.memory.size = m.memory.size := by
  refine Session.last_of_invariant (P := fun n : Machine => n.memory.size = m.memory.size) ?_ rfl
  intro step _ n hn
  rw [size_memory_act, hn]

end Machine

/-- **Old memory stays hidden.** Over any two memories that reach beyond the starting pointer a
stack opens, and the same pushes and pops give the same replies and faults, the same pointer, depth and
room after every step and the same events. So what a session on the machine shows is a function of
the file's stack pointer and the session's own transfers, whatever ran before it. -/
theorem Stack.session_hides_memory :
    (∀ (start : BitVec 16) (memory memory' : Buffer),
      start.toNat < memory.size → start.toNat < memory'.size →
      ∃ opened opened', Stack.ofBuffer memory start = .ok opened ∧
        Stack.ofBuffer memory' start = .ok opened' ∧ ∀ transfers : List Transfer,
          let session := Session.run Stack.act standing (transfers.map Transfer.step) opened
          let session' := Session.run Stack.act standing (transfers.map Transfer.step) opened'
          session.seen = session'.seen ∧ session.events = session'.events) ∧
    ∃ shown : BitVec 16 → List Transfer → List Standing × List Event,
      ∀ (earlier : List Machine.Step) (m : Machine),
        let left := (Session.run Machine.act Turn.reply earlier m).last
        left.file.stackPointer.toNat < m.memory.size → ∀ transfers : List Transfer,
          let turn := Machine.act (.stack (transfers.map Transfer.step)) left
          turn.reply = .stack (shown left.file.stackPointer transfers).1 ∧
            turn.events = (shown left.file.stackPointer transfers).2 := by
  constructor
  · intro start memory memory' h h'
    refine ⟨_, _, Stack.ofBuffer_eq_ok_iff.mpr ⟨h, rfl⟩, Stack.ofBuffer_eq_ok_iff.mpr ⟨h', rfl⟩, ?_⟩
    intro transfers session session'
    obtain ⟨hseen, hevents⟩ := Stack.run_eq_session h transfers
    obtain ⟨hseen', hevents'⟩ := Stack.run_eq_session h' transfers
    exact ⟨hseen.trans hseen'.symm, hevents.trans hevents'.symm⟩
  · refine ⟨fun start transfers =>
      ((Lifo.session start transfers).seen, (Lifo.session start transfers).events), ?_⟩
    intro earlier m left h transfers turn
    have hreach : left.file.stackPointer.toNat < left.memory.size := by
      rw [Machine.size_memory_run]
      exact h
    obtain ⟨hseen, hevents⟩ := Stack.run_eq_session hreach transfers
    have hturn : turn = left.openStack (transfers.map Transfer.step) := rfl
    rw [hturn, Machine.openStack_of_lt hreach]
    exact ⟨congrArg Machine.Answer.stack hseen, hevents⟩

/-- Four bytes are left behind by one session; the next one asks for them and is answered as it is
over fresh memory of another size. -/
theorem Stack.session_hides_memory_left :
    let transfers : List Transfer := [.push .w8 0x11#8, .pop .w16, .pop .w8, .pop .w32]
    let earlier : List Machine.Step := [.setStackPointer 5#16, .stack [.push .w32 0xDEADBEEF#32]]
    let left := (Session.run Machine.act Turn.reply earlier (.initial 6)).last
    let fresh := (Session.run Machine.act Turn.reply [.setStackPointer 5#16] (.initial 9)).last
    (left.memory ≠ .filled 6 0#8 ∧ left.file.stackPointer.toNat < 6 ∧
      fresh.file.stackPointer.toNat < 9) ∧
    (Machine.act (.stack (transfers.map Transfer.step)) left).reply =
      (Machine.act (.stack (transfers.map Transfer.step)) fresh).reply := by
  intro transfers earlier left fresh
  obtain ⟨-, shown, hshown⟩ := session_hides_memory
  have hleft : left.file.stackPointer.toNat < 6 := by decide
  have hfresh : fresh.file.stackPointer.toNat < 9 := by decide
  have hpointer : left.file.stackPointer = fresh.file.stackPointer := by decide
  refine ⟨⟨by decide, hleft, hfresh⟩, ?_⟩
  rw [(hshown earlier (.initial 6) hleft transfers).1,
    (hshown [.setStackPointer 5#16] (.initial 9) hfresh transfers).1]
  exact congrArg (fun pointer => Machine.Answer.stack (shown pointer transfers).1) hpointer

end Datapath
