import Datapath.CommandLine.Transcript
import Datapath.RegisterFile

/-!
# Pushing values

Values of one width pushed onto a fresh stack, and popped off again if so asked. A push that finds no
room ends the pushing but not the run; the popping goes on until fewer bytes are in use than a value
has. The report keeps every step as values, and its lines follow from it.
-/

set_option autoImplicit false

namespace Datapath.CommandLine

/-- Values to push. -/
structure PushRequest where
  width : Width
  values : List Cell
  /-- Where the stack starts, which has to fit sixteen bits. -/
  pointer : Cell
  /-- Pop every value off again. -/
  pop : Bool
  deriving DecidableEq, Repr

/-- A value that was pushed. -/
structure Pushed where
  /-- The value as it was given, whole. -/
  value : Cell
  /-- The pointer after the push. -/
  pointer : Int
  /-- The bytes that the push wrote, from the lowest address up. -/
  bytes : List Byte
  deriving DecidableEq, Repr

/-- A value that was popped. -/
structure Popped where
  value : Nat
  /-- The pointer after the pop. -/
  pointer : Int
  deriving DecidableEq, Repr

/-- What came of a run on a stack. -/
structure PushReport where
  pushed : List Pushed
  /-- The first value that found no room, and the fault. -/
  refused : Option (Cell × StackFault)
  popped : List Popped
  /-- A fault that ended the popping though bytes enough were in use. -/
  broken : Option StackFault
  /-- Bytes in use at the end. -/
  depth : Nat
  /-- Bytes free at the end. -/
  available : Nat
  deriving DecidableEq, Repr

/-! ## Running -/

/-- The bytes of the last push, from the lowest address up. -/
def lastPushed (w : Width) (s : Stack) : List Byte :=
  let start := (s.pointer + 1).toNat
  (s.memory.extract start (start + w.bytes)).toList

/-- Pushes values until one finds no room. -/
def pushAll (w : Width) : List Cell → Stack → List Pushed × Option (Cell × StackFault) × Stack
  | [], s => ([], none, s)
  | value :: rest, s =>
    let run := s.push w (Cell.unsigned w value)
    match run.result with
    | .error fault => ([], some (value, fault), run.state)
    | .ok () =>
      let entry : Pushed := ⟨value, run.state.pointer, lastPushed w run.state⟩
      let (pushed, refused, last) := pushAll w rest run.state
      (entry :: pushed, refused, last)

/-- Pops values until too few bytes are in use; every pop takes at least one byte, so that as many
rounds as there are bytes are enough. -/
def popAll (w : Width) : Nat → Stack → List Popped × Option StackFault × Stack
  | 0, s => ([], none, s)
  | rounds + 1, s =>
    let run := s.pop w
    match run.result with
    -- The regular end: fewer bytes are left than a value has.
    | .error (.underflow _ _) => ([], none, run.state)
    | .error fault => ([], some fault, run.state)
    | .ok value =>
      let entry : Popped := ⟨value.toNat, run.state.pointer⟩
      let (popped, broken, last) := popAll w rounds run.state
      (entry :: popped, broken, last)

namespace PushRequest

/-- Why a run cannot begin. -/
inductive Refusal
  /-- The starting pointer does not fit sixteen bits. -/
  | pointer (value : Cell)
  | stack (fault : StackFault)
  deriving DecidableEq, Repr

/-- The refusal in words. -/
def Refusal.message : Refusal → String
  | pointer value => "Stack pointer " ++ Numeral.marked 0 value.toNat ++ " does not fit in 16 bits"
  | stack fault => fault.message

/-- Pushes the values onto a fresh stack and pops them off again if so asked. -/
def evaluate (r : PushRequest) : Except Refusal PushReport :=
  if r.pointer.toNat < RegisterFile.stackSize then
    match Stack.ofBuffer (.filled RegisterFile.stackSize 0#8) (r.pointer.setWidth 16) with
    | .error fault => .error (.stack fault)
    | .ok fresh =>
      let (pushed, refused, full) := pushAll r.width r.values fresh
      let (popped, broken, last) :=
        if r.pop then popAll r.width (full.depth + 1) full else ([], none, full)
      .ok ⟨pushed, refused, popped, broken, last.depth, last.available⟩
  else .error (.pointer r.pointer)

end PushRequest

/-! ## Lines -/

/-- The line of a push. -/
def Pushed.line (p : Pushed) : String :=
  "push " ++ Numeral.marked 0 p.value.toNat ++ ": ptr=" ++ Numeral.signed p.pointer ++
    " [" ++ " ".intercalate (p.bytes.map fun b => Numeral.hex 2 b.toNat) ++ "]"

/-- The line of a pop. -/
def Popped.line (p : Popped) : String :=
  "pop  " ++ Numeral.marked 0 p.value ++ ": ptr=" ++ Numeral.signed p.pointer

/-- The complaint about a value that found no room. -/
def refusedLine (value : Cell) (fault : StackFault) : String :=
  Transcript.complaint ("push " ++ Numeral.marked 0 value.toNat ++ ": " ++ fault.message)

/-- The line that says how the stack stands at the end. -/
def PushReport.totals (r : PushReport) : String :=
  "depth " ++ Numeral.decimal r.depth ++ " bytes, " ++ Numeral.decimal r.available ++ " free"

/-- The run as it is seen. -/
def PushReport.transcript (r : PushReport) : Transcript :=
  let steps := r.pushed.map Pushed.line ++ r.popped.map Popped.line
  let refusals := r.refused.toList.map fun (value, fault) => refusedLine value fault
  match r.broken with
  | none => ⟨0, steps ++ [r.totals], refusals⟩
  | some fault => ⟨1, steps, refusals ++ [Transcript.complaint fault.message]⟩

/-- The run that pushes values and reports. -/
def PushRequest.run (r : PushRequest) : Transcript :=
  match r.evaluate with
  | .error refusal => .failed (Transcript.complaint refusal.message)
  | .ok report => report.transcript

end Datapath.CommandLine
