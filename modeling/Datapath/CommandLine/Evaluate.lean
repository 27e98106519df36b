import Datapath.Alu.Unit
import Datapath.CommandLine.Transcript
import Datapath.Snapshot
import Datapath.Status.Text

/-!
# Evaluating one operation

One ALU operation on two given cells, from a status word that holds only the operand width and the
carry. The report keeps the two inputs and what the operation left, and has a form for people and a
JSON form, both made from the same values.
-/

set_option autoImplicit false

namespace Datapath.CommandLine

/-- An operation to evaluate. -/
structure AluRequest where
  op : AluOp
  /-- The target. -/
  a : Cell
  /-- The operand. -/
  b : Cell
  width : Width
  /-- The carry before the operation. -/
  carry : Bool
  /-- Report as JSON. -/
  json : Bool
  deriving DecidableEq, Repr

/-- What an operation was asked and what it left. -/
structure AluReport where
  op : AluOp
  a : Cell
  b : Cell
  width : Width
  /-- The target afterwards. -/
  result : Cell
  /-- The operand afterwards. -/
  operand : Cell
  /-- The status word afterwards. -/
  status : StatusWord
  deriving DecidableEq, Repr

namespace AluRequest

/-- The status word before the operation. -/
def status (r : AluRequest) : StatusWord :=
  (StatusWord.clear.write .width r.width).assign .carry r.carry

/-- Runs the operation. -/
def evaluate (r : AluRequest) : Except ArithmeticFault AluReport :=
  let run := (⟨r.a, r.b, r.status⟩ : Operands).apply r.op
  run.result.map fun () =>
    { op := r.op, a := r.a, b := r.b, width := r.width
      result := run.state.target, operand := run.state.operand, status := run.state.status }

end AluRequest

namespace AluReport

/-- The report for people. -/
def lines (r : AluReport) : List String :=
  [Named.name r.op ++ " " ++ Numeral.marked 0 r.a.toNat ++ ", " ++ Numeral.marked 0 r.b.toNat ++
      " (" ++ Numeral.decimal r.width.bits ++ "-bit)",
    "  result  = " ++ Cell.text r.result ++ " (" ++ Cell.signedText r.result ++ ")",
    "  operand = " ++ Cell.text r.operand ++ " (" ++ Cell.signedText r.operand ++ ")",
    "  " ++ r.status.trace]

/-- The report as a JSON document. -/
def document (r : AluReport) : Document :=
  .record
    [("op", Snapshot.document r.op),
      ("bits", .natural r.width.bits),
      ("result", Snapshot.document r.result),
      ("operand", Snapshot.document r.operand),
      ("status", Snapshot.document r.status),
      ("carry", .truth (r.status.flag .carry)),
      ("overflow", .truth (r.status.flag .overflow)),
      ("zero", .truth (r.status.flag .zero)),
      ("negative", .truth (r.status.flag .negative))]

end AluReport

/-- The run that evaluates an operation and reports. -/
def AluRequest.run (r : AluRequest) : Transcript :=
  match r.evaluate with
  | .error fault =>
    .failed (Transcript.complaint (Named.name r.op ++ ": " ++ fault.message))
  | .ok report => .printed (if r.json then [report.document.pretty] else report.lines)

end Datapath.CommandLine
