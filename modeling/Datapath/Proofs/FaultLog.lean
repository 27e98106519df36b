import Datapath.Proofs.Execute
import Datapath.Proofs.Session
import Datapath.Proofs.StackFrame
import Datapath.Session.Machine
import Mathlib.Logic.Function.Basic

/-!
# Faults in the log

Who calls the core and keeps what it asked, what it got and what it held before can write the log
without looking at it. `records` is that account for one call: a line before every operation, and a
line for every fault that came back, except where a stack could not be opened. It is put together from the
accounts of the parts, a status word, a stack and a machine, and each of them is checked against the
events of its part, step by step (`events_act`). Runs follow by one induction
(`Session.events_eq_flatMap_history`).

The program here holds any number of machines, status words and stacks, and its calls to them come in
any order: a stack stays open while the file that it was opened for goes on.
-/

set_option autoImplicit false

namespace Datapath

open Session (Taken history)

/-! ## Lines of the log -/

/-- A line of the log. -/
structure Record where
  level : Level
  text : String
  deriving DecidableEq, Repr

/-- The line that an event is written as. -/
def Event.record (e : Event) : Record :=
  ⟨e.level, e.message⟩

/-- The faults in a reply. -/
def Reply.faults : Reply → List Fault
  | .fault f => [f]
  | _ => []

/-- The faults in an answer of a machine. -/
def Machine.Answer.faults : Machine.Answer → List Fault
  | .plain reply => reply.faults
  | .stack standings => standings.flatMap (·.reply.faults)

/-- There is one line of its level for every fault of a kind that is logged, and there are no others of
these levels. -/
structure Tallies (log : List Record) (faults : List Fault) : Prop where
  debug : log.countP (·.level == .debug) =
    faults.countP (·.kind ∈ ["DivisionByZero", "Overflow", "Underflow"])
  warn : log.countP (·.level == .warn) = faults.countP (·.kind == "InvalidField")

theorem Tallies.nil : Tallies [] [] :=
  ⟨rfl, rfl⟩

theorem Tallies.flatMap {ι : Type} {items : List ι} {log : ι → List Record}
    {faults : ι → List Fault} (h : ∀ i ∈ items, Tallies (log i) (faults i)) :
    Tallies (items.flatMap log) (items.flatMap faults) := by
  constructor
  · rw [List.countP_flatMap, List.countP_flatMap]
    exact congrArg List.sum (List.map_congr_left fun i hi => (h i hi).debug)
  · rw [List.countP_flatMap, List.countP_flatMap]
    exact congrArg List.sum (List.map_congr_left fun i hi => (h i hi).warn)

/-! ## Status words -/

namespace StatusWord

/-- What a step on a status word writes: a warning with the message of the fault, if a byte was refused. -/
def records : Step → Reply → List Record
  | .select _ _, .fault (.status fault) => [⟨.warn, "status word: " ++ fault.message⟩]
  | _, _ => []

theorem events_act (step : Step) (w : StatusWord) :
    (act step w).events.map Event.record = records step (act step w).reply := by
  cases step with
  | select c value =>
    rw [act, select]
    split <;> rfl
  | _ => rfl

theorem tallies_act (step : Step) (w : StatusWord) :
    Tallies (records step (act step w).reply) (act step w).reply.faults := by
  cases step with
  | select c value =>
    rw [act, select]
    split
    · exact .nil
    · exact ⟨rfl, rfl⟩
  -- A field answers with its value, whichever it is.
  | read f => cases f <;> exact .nil
  | _ => exact .nil

end StatusWord

/-! ## Stacks -/

namespace Stack

/-- What a step on a stack with this pointer writes: the pointer and the number of bytes, if there was
no room for them or not so many were in use. -/
def records : Step → Int → Reply → List Record
  | .push _ _, pointer, .fault (.stack (.overflow needed _)) =>
    [⟨.debug, "stack overflow at " ++ Numeral.signed pointer ++ ": push of " ++
      Numeral.decimal needed ++ " bytes"⟩]
  | .pop _, pointer, .fault (.stack (.underflow needed _)) =>
    [⟨.debug, "stack underflow at " ++ Numeral.signed pointer ++ ": pop of " ++
      Numeral.decimal needed ++ " bytes"⟩]
  | _, _, _ => []

/-- What a step of a session writes. -/
def recordsTaken (taken : Taken Step Stack Reply) : List Record :=
  records taken.step taken.before.pointer taken.reply

theorem events_act (step : Step) (s : Stack) :
    (act step s).events.map Event.record = records step s.pointer (act step s).reply := by
  cases step with
  | push w value =>
    by_cases hroom : w.bytes ≤ s.available
    · rw [act, push_of_le value hroom]
      rfl
    · rw [act, push_of_lt value (Nat.lt_of_not_le hroom)]
      rfl
  | pop w =>
    by_cases hused : w.bytes ≤ s.depth
    · rw [act, pop_of_le hused]
      rfl
    · rw [act, pop_of_lt (Nat.lt_of_not_le hused)]
      rfl
  | _ => rfl

theorem tallies_act (step : Step) (s : Stack) :
    Tallies (records step s.pointer (act step s).reply) (act step s).reply.faults := by
  cases step with
  | push w value =>
    by_cases hroom : w.bytes ≤ s.available
    · rw [act, push_of_le value hroom]
      exact .nil
    · rw [act, push_of_lt value (Nat.lt_of_not_le hroom)]
      exact ⟨rfl, rfl⟩
  | pop w =>
    by_cases hused : w.bytes ≤ s.depth
    · rw [act, pop_of_le hused]
      exact .nil
    · rw [act, pop_of_lt (Nat.lt_of_not_le hused)]
      exact ⟨rfl, rfl⟩
  | _ => exact .nil

/-- A step that comes back with a fault leaves the stack as it was. -/
theorem state_act_of_fault {step : Step} {s : Stack} {fault : Fault}
    (h : (act step s).reply = .fault fault) : (act step s).state = s := by
  cases step with
  | push w value =>
    by_cases hroom : w.bytes ≤ s.available
    · rw [act, push_of_le value hroom] at h
      exact nomatch h
    · rw [act, push_of_lt value (Nat.lt_of_not_le hroom)]
      rfl
  | pop w =>
    by_cases hused : w.bytes ≤ s.depth
    · rw [act, pop_of_le hused] at h
      exact nomatch h
    · rw [act, pop_of_lt (Nat.lt_of_not_le hused)]
      rfl
  | _ => rfl

/-- A stack that cannot be opened is a fault of which nothing is written. -/
theorem tallies_ofBuffer {memory : Buffer} {pointer : BitVec 16} {fault : StackFault}
    (h : Stack.ofBuffer memory pointer = .error fault) : Tallies [] [.stack fault] := by
  by_cases hstart : pointer.toNat < memory.size
  · rw [ofBuffer, if_pos hstart] at h
    cases h
  · rw [ofBuffer, if_neg hstart] at h
    obtain rfl := Except.error.inj h
    exact ⟨rfl, rfl⟩

theorem tallies_history (steps : List Step) (s : Stack) :
    Tallies ((history act steps s).flatMap recordsTaken)
      ((history act steps s).flatMap (·.reply.faults)) := by
  refine .flatMap fun taken htaken => ?_
  obtain ⟨hreply, -⟩ := Session.eq_of_mem_history htaken
  rw [recordsTaken, hreply]
  exact tallies_act taken.step taken.before

end Stack

/-! ## Machines -/

/-- An operation raises an event if its divisor is zero, and no other. -/
theorem Operands.events_apply (x : Operands) (op : AluOp) :
    (x.apply op).events =
      if op = .divide ∧ x.operand = 0#64 then [.zeroDivisor x.target] else [] := by
  cases op with
  | divide =>
    by_cases h : x.operand = 0#64
    · simp [apply, divide, Cell.isZero, h, Outcome.refuse]
    · simp [apply, divide, Cell.isZero, h, Outcome.done]
  | _ => rfl

namespace Machine

/-- What an operation on two general registers writes: a line with their values before it, and one with
the dividend if the divisor was zero. -/
def executeRecords (f : RegisterFile) (op : AluOp) (target source : Register) (answer : Answer) :
    List Record :=
  let targetText := Cell.text (f.general.get target)
  let sourceText := Cell.text (f.general.get source)
  ⟨.trace, Named.name op ++ " " ++ Named.name target ++ "=" ++ targetText ++ " " ++
      Named.name source ++ "=" ++ sourceText⟩ ::
    if answer = .plain (.fault (.arithmetic .divisionByZero)) then
      [⟨.debug, "divide 0x" ++ targetText ++ " by zero"⟩]
    else []

/-- The steps on a stack of its own that a step on the machine consists of. -/
def transfers (step : Step) (m : Machine) : List (Taken Stack.Step Stack Reply) :=
  match step with
  | .stack steps =>
    match m.file.stackOver m.memory with
    | .error _ => []
    | .ok opened => history Stack.act steps opened
  | _ => []

/-- What a step on a machine writes. -/
def records (taken : Taken Step Machine Answer) : List Record :=
  match taken.step, taken.reply with
  | .execute op target source, answer => executeRecords taken.before.file op target source answer
  | .status step, .plain reply => StatusWord.records step reply
  | .stack steps, _ => (transfers (.stack steps) taken.before).flatMap Stack.recordsTaken
  | _, _ => []

theorem reply_execute (m : Machine) (op : AluOp) (target source : Register) :
    (act (.execute op target source) m).reply =
      .plain (if op = .divide ∧ m.file.general.get source = 0#64 then
        .fault (.arithmetic .divisionByZero) else .done) := by
  have hresult := Operands.apply_result (m.file.operands target source) op
  rw [← RegisterFile.result_execute] at hresult
  by_cases h : op = .divide ∧ m.file.general.get source = 0#64
  · rw [RegisterFile.operands, if_pos h] at hresult
    rw [if_pos h]
    simp only [act, within, Turn.ofUnit, Turn.ofOutcome, hresult]
  · rw [RegisterFile.operands, if_neg h] at hresult
    rw [if_neg h]
    simp only [act, within, Turn.ofUnit, Turn.ofOutcome, hresult]

theorem events_execute (m : Machine) (op : AluOp) (target source : Register) :
    (act (.execute op target source) m).events =
      .dispatched op target source (m.file.general.get target) (m.file.general.get source) ::
        if op = .divide ∧ m.file.general.get source = 0#64 then
          [.zeroDivisor (m.file.general.get target)] else [] :=
  congrArg (List.cons _) (Operands.events_apply (m.file.operands target source) op)

theorem events_openStack (m : Machine) (steps : List Stack.Step) :
    (m.openStack steps).events.map Event.record =
      (transfers (.stack steps) m).flatMap Stack.recordsTaken := by
  rw [openStack, transfers]
  cases m.file.stackOver m.memory with
  | error fault => rfl
  | ok opened =>
    exact Session.events_eq_flatMap_history (fun step s => Stack.events_act step s) steps opened

theorem tallies_openStack (m : Machine) (steps : List Stack.Step) :
    Tallies ((transfers (.stack steps) m).flatMap Stack.recordsTaken)
      (m.openStack steps).reply.faults := by
  rw [openStack, transfers]
  cases hopened : m.file.stackOver m.memory with
  | error fault => exact Stack.tallies_ofBuffer hopened
  | ok opened =>
    have hseen : (Session.run Stack.act Stack.standing steps opened).seen =
        (history Stack.act steps opened).map fun taken =>
          ⟨taken.after.pointer, taken.after.depth, taken.after.available, taken.reply⟩ :=
      Session.seen_eq_map_history
        (fun (reply : Reply) (s : Stack) =>
          (⟨s.pointer, s.depth, s.available, reply⟩ : Stack.Standing)) steps opened
    simp only [Answer.faults, hseen, List.flatMap_map]
    exact Stack.tallies_history steps opened

theorem events_act (step : Step) (m : Machine) :
    (act step m).events.map Event.record =
      records ⟨step, m, (act step m).reply, (act step m).state⟩ := by
  cases step with
  | execute op target source =>
    rw [events_execute]
    simp only [records, executeRecords, reply_execute, List.map_cons]
    by_cases h : op = .divide ∧ m.file.general.get source = 0#64
    · rw [if_pos h, if_pos h]
      rfl
    · rw [if_neg h, if_neg h]
      rfl
  | status step => exact StatusWord.events_act step m.file.status
  | stack steps => exact events_openStack m steps
  | load text =>
    rw [act]
    cases (Snapshot.load? text : Option RegisterFile) <;> rfl
  | general r step => cases step <;> rfl
  | selected step => cases step <;> rfl
  -- No other step has anything under it that could raise an event.
  | _ => rfl

theorem tallies_act (step : Step) (m : Machine) :
    Tallies (records ⟨step, m, (act step m).reply, (act step m).state⟩) (act step m).reply.faults := by
  cases step with
  | execute op target source =>
    simp only [records, executeRecords, reply_execute]
    by_cases h : op = .divide ∧ m.file.general.get source = 0#64
    · rw [if_pos h]
      exact ⟨rfl, rfl⟩
    · rw [if_neg h]
      exact ⟨rfl, rfl⟩
  | status step => exact StatusWord.tallies_act step m.file.status
  | stack steps => exact tallies_openStack m steps
  | load text =>
    rw [act]
    cases (Snapshot.load? text : Option RegisterFile) <;> exact .nil
  | general r step => cases step <;> exact .nil
  | selected step => cases step <;> exact .nil
  | _ => exact .nil

end Machine

/-! ## A program and its calls -/

/-- What a program holds: machines, status words of its own, and the stacks that it has open. -/
structure Holdings where
  machine : Nat → Machine
  word : Nat → StatusWord
  stack : Nat → Option Stack

namespace Holdings

/-- A call of the program. -/
inductive Call
  | machine (i : Nat) (step : Machine.Step)
  | word (i : Nat) (step : StatusWord.Step)
  /-- Open a stack over a memory at a pointer. -/
  | openAt (i : Nat) (memory : Buffer) (pointer : BitVec 16)
  /-- Open a stack over a memory for the file of a machine. -/
  | openFor (i : Nat) (owner : Nat) (memory : Buffer)
  /-- A step on a stack, if it is open. -/
  | stack (i : Nat) (step : Stack.Step)

/-- Takes the stack that was opened, or answers with the fault. -/
def opened (p : Holdings) (i : Nat) (result : Except StackFault Stack) :
    Turn Holdings Machine.Answer :=
  match result with
  | .ok s => .answer { p with stack := Function.update p.stack i (some s) } (.plain .done)
  | .error fault => .answer p (.plain (.fault (.stack fault)))

/-- Makes one call. -/
def act (call : Call) (p : Holdings) : Turn Holdings Machine.Answer :=
  match call with
  | .machine i step =>
    let turn := Machine.act step (p.machine i)
    ⟨{ p with machine := Function.update p.machine i turn.state }, turn.reply, turn.events⟩
  | .word i step =>
    let turn := StatusWord.act step (p.word i)
    ⟨{ p with word := Function.update p.word i turn.state }, .plain turn.reply, turn.events⟩
  | .openAt i memory pointer => p.opened i (Stack.ofBuffer memory pointer)
  | .openFor i owner memory => p.opened i ((p.machine owner).file.stackOver memory)
  | .stack i step =>
    match p.stack i with
    | none => .answer p (.plain .done)
    | some s =>
      let turn := Stack.act step s
      ⟨{ p with stack := Function.update p.stack i (some turn.state) }, .plain turn.reply,
        turn.events⟩

/-- The steps on stacks that a call consists of. -/
def transfers (call : Call) (p : Holdings) : List (Taken Stack.Step Stack Reply) :=
  match call with
  | .machine i step => Machine.transfers step (p.machine i)
  | .stack i step => (p.stack i).elim [] (history Stack.act [step])
  | _ => []

/-- What a call writes. -/
def records (taken : Taken Call Holdings Machine.Answer) : List Record :=
  match taken.step, taken.reply with
  | .machine i step, answer =>
    Machine.records ⟨step, taken.before.machine i, answer, taken.after.machine i⟩
  | .word _ step, .plain reply => StatusWord.records step reply
  -- The pointer is taken from the stack before the call: a refusal has to name it unchanged.
  | .stack i step, .plain reply =>
    (taken.before.stack i).elim [] fun s => Stack.records step s.pointer reply
  | _, _ => []

/-- **One call** writes what its caller can tell. -/
theorem events_act (call : Call) (p : Holdings) :
    (act call p).events.map Event.record =
      records ⟨call, p, (act call p).reply, (act call p).state⟩ := by
  cases call with
  | machine i step =>
    rw [act, Machine.events_act]
    simp only [records, Function.update_self]
  | word i step => exact StatusWord.events_act step (p.word i)
  | openAt i memory pointer =>
    -- A stack that does not open is an answer and no event.
    rw [act]
    cases Stack.ofBuffer memory pointer <;> rfl
  | openFor i owner memory =>
    rw [act]
    cases (p.machine owner).file.stackOver memory <;> rfl
  | stack i step =>
    rw [act]
    cases h : p.stack i with
    | none =>
      simp only [records, Turn.answer, h, Option.elim_none, List.map_nil]
    | some s =>
      simp only [records, h, Option.elim_some]
      exact Stack.events_act step s

/-- **One call** writes a line for every fault of a kind that is logged. -/
theorem tallies_act (call : Call) (p : Holdings) :
    Tallies (records ⟨call, p, (act call p).reply, (act call p).state⟩)
      (act call p).reply.faults := by
  cases call with
  | machine i step =>
    simp only [records, act, Function.update_self]
    exact Machine.tallies_act step (p.machine i)
  | word i step => exact StatusWord.tallies_act step (p.word i)
  | openAt i memory pointer =>
    rw [act]
    cases h : Stack.ofBuffer memory pointer with
    | error fault => exact Stack.tallies_ofBuffer h
    | ok s => exact .nil
  | openFor i owner memory =>
    rw [act]
    cases h : (p.machine owner).file.stackOver memory with
    | error fault => exact Stack.tallies_ofBuffer h
    | ok s => exact .nil
  | stack i step =>
    rw [act]
    cases h : p.stack i with
    | none =>
      simp only [records, Turn.answer, h, Option.elim_none]
      exact .nil
    | some s =>
      simp only [records, h, Option.elim_some]
      exact Stack.tallies_act step s

/-- **One call** that is refused on a stack leaves the stack as it was. -/
theorem after_eq_before_of_fault {call : Call} {p : Holdings}
    {taken : Taken Stack.Step Stack Reply} (h : taken ∈ transfers call p) {fault : Fault}
    (hfault : taken.reply = .fault fault) : taken.after = taken.before := by
  have hstays : ∀ {steps : List Stack.Step} {s : Stack}, taken ∈ history Stack.act steps s →
      taken.after = taken.before := by
    intro steps s hmem
    obtain ⟨hreply, hafter⟩ := Session.eq_of_mem_history hmem
    rw [hafter]
    exact Stack.state_act_of_fault (hreply.symm.trans hfault)
  cases call with
  | machine i step =>
    cases step with
    | stack steps =>
      rw [transfers, Machine.transfers] at h
      cases hs : (p.machine i).file.stackOver (p.machine i).memory with
      | error fault =>
        rw [hs] at h
        exact absurd h List.not_mem_nil
      | ok opened =>
        rw [hs] at h
        exact hstays h
    | _ => exact absurd h List.not_mem_nil
  | stack i step =>
    rw [transfers] at h
    cases hs : p.stack i with
    | none =>
      rw [hs] at h
      exact absurd h List.not_mem_nil
    | some s =>
      rw [hs] at h
      exact hstays h
  | _ => exact absurd h List.not_mem_nil

/-- **Every fault is logged once, in order.** The log of a program is that of its calls, one after the
other. An operation on two registers writes their values before it, and then the dividend if it came
back with a division by zero; a push and a pop write the pointer and the bytes that they needed if
they came back with an overflow or an underflow, and then the pointer, as all else of the stack, is
what it was; a byte that is refused is written with the message that came back. No other call writes
anything, not even one that fails to open a stack. So there are as many lines of either level as faults
of the kinds that have it. -/
theorem faults_logged_once {β : Type} (observe : Turn Holdings Machine.Answer → β)
    (calls : List Call) (p : Holdings) :
    let log := (Session.run act observe calls p).events.map Event.record
    let taken := history act calls p
    log = taken.flatMap records ∧
      (∀ call ∈ taken, ∀ transfer ∈ transfers call.step call.before, ∀ fault,
        transfer.reply = .fault fault → transfer.after = transfer.before) ∧
      log.countP (·.level == .debug) = (taken.flatMap (·.reply.faults)).countP
        (·.kind ∈ ["DivisionByZero", "Overflow", "Underflow"]) ∧
      log.countP (·.level == .warn) =
        (taken.flatMap (·.reply.faults)).countP (·.kind == "InvalidField") := by
  intro log taken
  have hlog : log = taken.flatMap records := Session.events_eq_flatMap_history events_act calls p
  have htallies : Tallies (taken.flatMap records) (taken.flatMap (·.reply.faults)) := by
    refine .flatMap fun call hcall => ?_
    obtain ⟨hreply, hafter⟩ := Session.eq_of_mem_history hcall
    have hcalled := tallies_act call.step call.before
    rw [← hreply, ← hafter] at hcalled
    exact hcalled
  refine ⟨hlog, ?_, ?_, ?_⟩
  · intro call _ transfer htransfer fault hfault
    exact after_eq_before_of_fault htransfer hfault
  · rw [hlog]
    exact htallies.debug
  · rw [hlog]
    exact htallies.warn

/-- Every fault that is logged, and two that are not: a machine's file and a pointer that lie outside
the memory that a stack is opened over. The dividend is the difference that the operation before it
left, and the pointer is where a push that succeeded moved it. -/
theorem faults_logged_once_of_each_kind :
    let calls : List Call :=
      [.machine 0 (.general .r1 (.replace 42#64)), .machine 0 (.general .r2 (.replace 7#64)),
        .machine 0 (.execute .subtract .r1 .r2), .machine 0 (.execute .divide .r1 .r3),
        .openFor 0 0 (.filled 4 0#8), .openAt 0 (.filled 4 0#8) 4#16, .openAt 0 (.filled 4 0#8) 3#16,
        .stack 0 (.push .w16 0xABCD#16), .stack 0 (.push .w32 0x12345678#32),
        .stack 0 (.pop .w64), .word 0 (.select .width 7#8)]
    (Session.run act id calls ⟨fun _ => .initial 4, fun _ => .clear, fun _ => none⟩).events.map
        Event.record =
      [⟨.trace, "Subtract R1=000000000000002A R2=0000000000000007"⟩,
        ⟨.trace, "DivideSigned R1=0000000000000023 R3=0000000000000000"⟩,
        ⟨.debug, "divide 0x0000000000000023 by zero"⟩,
        ⟨.debug, "stack overflow at 1: push of 4 bytes"⟩,
        ⟨.debug, "stack underflow at 1: pop of 8 bytes"⟩,
        ⟨.warn, "status word: operand size must be <= 3, got 7"⟩] :=
  (faults_logged_once id _ _).1.trans (by decide)

end Holdings

end Datapath
